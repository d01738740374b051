import Unjar.OrderedMap
import Unjar.Text.LowerCase

/-!
Archive manifests.

The main section of a manifest lists attributes, one `Name: value` to a line; a line that begins
with a space continues the value before it.  The section ends at the first blank line behind an
attribute.

Main definitions:

* `Unjar.Manifest.mainAttributes` — the attributes of the main section;
* `Unjar.Manifest.classPath` — the words of the attribute that lists other archives.
-/

set_option autoImplicit false

namespace Unjar.Manifest

/-- The attributes of a section so far, and the one that the next line may continue. -/
structure Section where
  /-- The attributes by name. -/
  attributes : OrderedMap Text Text
  /-- The name of the attribute on the line before. -/
  current : Option Text

/-- The value behind the colon: one space before it is left out. -/
def valueOf : Text → Text
  | ' ' :: value => value
  | value => value

/-- A line that begins an attribute; without a colon it begins none. -/
def Section.begin (s : Section) (line : Text) : Section :=
  match cutAtFirst ':' line with
  | none => { s with current := none }
  | some (name, value) =>
    let name := Text.strip name
    ⟨s.attributes.put name (valueOf value), some name⟩

/-- A line that is not blank. -/
def Section.add (s : Section) (line : Text) : Section :=
  match line, s.current with
  | ' ' :: more, some name =>
    { s with attributes := s.attributes.put name ((s.attributes.get? name).getD [] ++ more) }
  | _, _ => s.begin line

/-- The attributes after the lines up to the end of the section. -/
def Section.addAll (s : Section) : List Text → OrderedMap Text Text
  | [] => s.attributes
  | line :: more =>
    if Text.isAllBlank line then
      if s.attributes.isEmpty then s.addAll more else s.attributes
    else (s.add line).addAll more

/-- The attributes of the main section. -/
def mainAttributes (content : Text) : OrderedMap Text Text :=
  Section.addAll ⟨[], none⟩ (Text.lines content)

/-- **The words of the class path**, whatever the case in which its name is written. -/
def classPath (content : Text) : List Text :=
  match (mainAttributes content).find? fun (name, _) =>
      Text.toLower name == "class-path".toList with
  | some (_, value) => Text.fields value
  | none => []

end Unjar.Manifest
