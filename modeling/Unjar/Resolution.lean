import Unjar.PackageTable
import Unjar.Path
import Unjar.Project
import Unjar.References
import Unjar.Text.LowerCase

/-!
Resolving dependencies.

Three sources tell what an archive depends on, and the first that tells anything is believed: the
descriptor that it carries, the class path in its manifest, and the types that its classes refer
to.  Unless a descriptor spoke, the baseline is added.

Main definitions:

* `Unjar.Corpus` — the types that each class refers to;
* `Unjar.Resolver`, `Unjar.Resolver.resolve` — the rules.
-/

set_option autoImplicit false

namespace Unjar

/-- The types that each class refers to, in the order in which the classes were met. -/
abbrev Corpus := OrderedMap Name TypeSet

/-- A table of packages, a baseline and the extensions of archives. -/
structure Resolver where
  table : PackageTable
  /-- The dependencies that are always added. -/
  baseline : List Coordinate
  /-- The extensions of archives, in lower case. -/
  archiveExtensions : List Text

namespace Resolver

/-- A resolver; the extensions are brought to lower case. -/
def make (table : PackageTable) (baseline : List Coordinate) (archiveExtensions : List Text) :
    Resolver :=
  ⟨table, baseline, archiveExtensions.map Text.toLower⟩

/-- The resolver with the built-in table and baseline. -/
def default : Resolver := make .known PackageTable.baseline [".jar".toList]

/-! ### The class path -/

/-- The artifact that a word of a class path stands for: the file name up to its last dot, if the
name ends in one of the extensions.  A name without a dot loses its last character. -/
def artifactOf (r : Resolver) (word : Text) : Option Text :=
  let name := (Path.ofText word).name
  if !(r.archiveExtensions.any fun extension => extension.isSuffixOf (Text.toLower name)) then none
  else
    let artifact := match cutAtLast '.' name with
      | some (before, _) => before
      | none => name.dropLast
    if artifact.isEmpty then none else some artifact

/-- A dependency of which only the artifact is known. -/
def stub (artifactId : Text) : Coordinate :=
  .plain Coordinate.unknown artifactId Coordinate.unknown Coordinate.compileScope
    "manifest-classpath".toList

/-- The dependencies that a class path stands for. -/
def ofManifest (r : Resolver) (words : List Text) : DependencySet :=
  .ofList ((words.filterMap r.artifactOf).map stub)

/-! ### References -/

/-- The dependencies that a corpus stands for, class by class and in each in the order of the type
names. -/
def ofReferences (r : Resolver) (corpus : Corpus) : DependencySet :=
  .ofList (corpus.flatMap fun (_, types) => types.toList.filterMap r.table.match?)

/-! ### All rules -/

/-- **The dependencies of an archive.** -/
def resolve (r : Resolver) (corpus : Corpus) (words : List Text)
    (embedded : Option EmbeddedDescriptor) : DependencySet :=
  let declared := (embedded.map EmbeddedDescriptor.dependencies).getD []
  if !declared.isEmpty then .ofList declared
  else
    let listed := r.ofManifest words
    let found := if listed.toList.isEmpty then r.ofReferences corpus else listed
    found.insertAll r.baseline

end Resolver

end Unjar
