import Unjar.OrderedMap
import Unjar.Text.Quoted

/-!
Dependencies.

A dependency is named by its group and its artifact; of several under one name the first that was
offered counts.

Main definitions:

* `Unjar.Coordinate` — a dependency;
* `Unjar.DependencySet` — dependencies in the order of their first offer, one for each name.
-/

set_option autoImplicit false

namespace Unjar

/-- **A dependency.** -/
structure Coordinate where
  groupId : Text
  artifactId : Text
  version : Option Text
  scope : Option Text
  /-- Where the dependency was found. -/
  source : Text
  /-- The packaging, if it is set. -/
  type : Option Text
  classifier : Option Text
  /-- Whether the dependency is optional. -/
  isOptional : Bool
  /-- The group and the artifact of what the dependency must not bring along. -/
  exclusions : List (Text × Text)
deriving DecidableEq, Repr

namespace Coordinate

/-- The word for a group or a version that could not be inferred. -/
def unknown : Text := "unknown".toList

/-- The scope of dependencies that are compiled against. -/
def compileScope : Text := "compile".toList

/-- A dependency without particulars. -/
def plain (groupId artifactId version scope source : Text) : Coordinate :=
  ⟨groupId, artifactId, some version, some scope, source, none, none, false, []⟩

/-- The name that tells dependencies apart. -/
def key (c : Coordinate) : Text × Text := (c.groupId, c.artifactId)

/-- Whether the group or the version could not be inferred. -/
def needsReview (c : Coordinate) : Bool := c.groupId == unknown || c.version == some unknown

/-- Group, artifact and, where it is known, version, with colons between them. -/
def toText (c : Coordinate) : Text :=
  let version := match c.version with
    | none | some [] => []
    | some version => ':' :: version
  c.groupId ++ ':' :: c.artifactId ++ version

end Coordinate

/-- **Dependencies in the order of their first offer**, one for each name. -/
structure DependencySet where
  /-- The dependencies. -/
  toList : List Coordinate
deriving DecidableEq, Repr

namespace DependencySet

/-- The set without members. -/
def empty : DependencySet := ⟨[]⟩

/-- The dependency of a name. -/
def get? (s : DependencySet) (groupId artifactId : Text) : Option Coordinate :=
  s.toList.find? fun c => c.key == (groupId, artifactId)

/-- Whether there is a dependency of a name. -/
def containsKey (s : DependencySet) (key : Text × Text) : Bool :=
  s.toList.any fun c => c.key == key

/-- Whether there is a dependency of the name that another has. -/
def contains (s : DependencySet) (c : Coordinate) : Bool := s.containsKey c.key

/-- A dependency offered: it is taken unless its name is. -/
def insert (s : DependencySet) (c : Coordinate) : DependencySet :=
  if s.contains c then s else ⟨s.toList ++ [c]⟩

/-- Dependencies offered in turn. -/
def insertAll (s : DependencySet) (cs : List Coordinate) : DependencySet := cs.foldl insert s

/-- The set of the dependencies of a list, offered in turn. -/
def ofList (cs : List Coordinate) : DependencySet := empty.insertAll cs

/-- The number of dependencies. -/
def size (s : DependencySet) : Nat := s.toList.length

/-- The names, in order. -/
def keys (s : DependencySet) : List (Text × Text) := s.toList.map Coordinate.key

/-- A set shown as the list of its members in quotes. -/
def toText (s : DependencySet) : Text :=
  "DependencySet([".toList ++
    joinWith ", ".toList (s.toList.map fun c => Text.quoted c.toText) ++ "])".toList

end DependencySet

end Unjar
