import Unjar.Archive
import Unjar.Pom.Embedded
import Unjar.References
import Unjar.Resolution

/-!
What an archive tells.

The classified entries of an archive are examined one after the other.  A class tells which types it
refers to, the first descriptor that can be read tells what the archive was built from, and the
manifest tells its class path.  A class that is malformed is noted and otherwise passed over.
Nothing here depends on what is written to disk.

Main definitions:

* `Unjar.Finding`, `Unjar.Findings` — what one entry tells, and what all of them told so far;
* `Unjar.Findings.examine`, `Unjar.Findings.record` — looking at an entry and keeping what it tells.
-/

set_option autoImplicit false

namespace Unjar

/-- The types that a class refers to, added to those that are known of a class of its name. -/
def Corpus.add (corpus : Corpus) (found : ClassReferences) : Corpus :=
  corpus.put found.owner <| match corpus.get? found.owner with
    | some known => known.union found.types
    | none => found.types

/-- **What one entry tells.** -/
inductive Finding where
  /-- A class and the types that it refers to. -/
  | classReferences (found : ClassReferences)
  /-- A class that cannot be read. -/
  | malformedClass
  /-- A resource, which tells nothing. -/
  | resource
  /-- A descriptor, if it can be read. -/
  | descriptor (embedded : Option EmbeddedDescriptor)
  /-- A descriptor behind the one that counts. -/
  | laterDescriptor
  /-- The words of the class path in the manifest. -/
  | manifest (words : List Text)

/-- **What the entries told so far.** -/
structure Findings where
  /-- The types that each class refers to. -/
  corpus : Corpus
  /-- The words of the class path. -/
  classPath : List Text
  /-- The descriptor that the archive carries. -/
  embedded : Option EmbeddedDescriptor
  /-- The number of classes that could be read. -/
  classesScanned : Nat
  /-- The entries of the classes that could not, in order. -/
  malformedClasses : List Text

namespace Findings

/-- What is known before the first entry. -/
def empty : Findings := ⟨[], [], none, 0, []⟩

/-- What an entry with these bytes tells.  Once a descriptor was read no further one is. -/
def examine (f : Findings) (content : ArchiveContent) (entry : ArchiveEntry) (bytes : Bytes) :
    Except Xml.EncodingFault Finding :=
  match entry.kind with
  | .classFile =>
    match ClassReferences.extract bytes with
    | .ok found => .ok (.classReferences found)
    | .error _ => .ok .malformedClass
  | .resource => .ok .resource
  | .descriptor =>
    if f.embedded.isSome then .ok .laterDescriptor
    else (EmbeddedDescriptor.ofBytes? entry.path bytes).map Finding.descriptor
  | .manifest => .ok (.manifest (Archive.manifestClassPath content))

/-- What is known after an entry. -/
def record (f : Findings) (entry : ArchiveEntry) : Finding → Findings
  | .classReferences found =>
    { f with corpus := f.corpus.add found, classesScanned := f.classesScanned + 1 }
  | .malformedClass => { f with malformedClasses := f.malformedClasses ++ [entry.path] }
  | .descriptor embedded => { f with embedded }
  | .manifest words => { f with classPath := words }
  | .resource | .laterDescriptor => f

end Findings

end Unjar
