import Unjar.Text

/-!
Paths.

A path is a list of components behind an optional root.  Empty components and single dots mean
nothing and are dropped as the text of the path is read; two dots are kept, since what they mean
depends on the directory before them.

Main definitions:

* `Unjar.Path`, `Unjar.Path.ofText`, `Unjar.Path.toText` — paths and their text;
* `Unjar.Path.join`, `Unjar.Path.parent`, `Unjar.Path.name` — composing and taking apart;
* `Unjar.Path.stem`, `Unjar.Path.suffix` — the name before and from its last dot;
* `Unjar.Path.normalize` — the location that a path names where there are no links.
-/

set_option autoImplicit false

namespace Unjar

/-- A directory or file, by the names on the way from the root. -/
abbrev Location := List Text

/-- **A path.** -/
structure Path where
  /-- The number of slashes that stand for the root: none in a relative path.  Exactly two in front
  of a path are kept apart from one. -/
  root : Nat
  /-- The components: neither empty nor a single dot, and without slashes. -/
  parts : List Text
deriving DecidableEq, Repr

namespace Path

/-- The component that leads to the directory above. -/
def up : Text := "..".toList

/-- The path that a text spells. -/
def ofText (t : Text) : Path :=
  let slashes := (t.takeWhile (· == '/')).length
  { root := if slashes ≤ 2 then slashes else 1
    parts := (splitOn '/' t).filter fun part => !(part.isEmpty || part == ['.']) }

/-- The path that a literal spells. -/
def ofString (s : String) : Path := ofText s.toList

/-- The text of a path; an empty one is written as a dot. -/
def toText (p : Path) : Text :=
  if p.root = 0 && p.parts.isEmpty then ['.']
  else List.replicate p.root '/' ++ joinWith ['/'] p.parts

/-- One path continued by another; a path with a root replaces what stands before it. -/
def join (p q : Path) : Path := if q.root = 0 then ⟨p.root, p.parts ++ q.parts⟩ else q

/-- A path continued by the path that a text spells. -/
def joinText (p : Path) (t : Text) : Path := p.join (ofText t)

/-- The path without its last component. -/
def parent (p : Path) : Path := { p with parts := p.parts.dropLast }

/-- The last component; the root and the empty path have an empty one. -/
def name (p : Path) : Text := p.parts.getLast?.getD []

/-- A name before its last dot, and from that dot on.  A dot in front of a name, or at its end,
parts nothing. -/
def splitName (name : Text) : Text × Text :=
  match cutAtLast '.' name with
  | none => (name, [])
  | some (stem, extension) =>
    if stem.isEmpty || extension.isEmpty then (name, []) else (stem, '.' :: extension)

/-- The name before its last dot. -/
def stem (p : Path) : Text := (splitName p.name).1

/-- The name from its last dot on. -/
def suffix (p : Path) : Text := (splitName p.name).2

/-- One component further, two dots leading back up; there is nothing above the root. -/
def step (here : Location) (part : Text) : Location :=
  if part == up then here.dropLast else here ++ [part]

/-- The location that a path names, seen from a working directory, if each pair of dots takes the
component before it back. -/
def normalize (workingDirectory : Location) (p : Path) : Location :=
  p.parts.foldl step (if p.root = 0 then workingDirectory else [])

/-- Whether one location lies strictly beneath another. -/
def isBeneath (inner outer : Location) : Bool := outer.isPrefixOf inner && inner != outer

/-- Paths are ordered by their components. -/
def le (p q : Path) : Bool := !(decide (q.parts < p.parts))

end Path

end Unjar
