import Unjar.ClassFile.Name

/-!
JSON values.

A value is written over several lines, each level two blanks further in; an empty list or record
stays on one line.  Only the printable characters of ASCII stand for themselves in a string.  All
others are escaped in units of sixteen bits, so that a code point above the first plane becomes a
pair of surrogates and a lone surrogate stays what it is.

Main definitions:

* `Unjar.JsonValue` — values;
* `Unjar.JsonValue.toText` — their text.
-/

set_option autoImplicit false

namespace Unjar

/-- **A JSON value**; its strings are sequences of code points. -/
inductive JsonValue where
  | null
  | bool (b : Bool)
  | string (s : Name)
  | list (items : List JsonValue)
  | record (fields : List (Name × JsonValue))

namespace JsonValue

def ofText (t : Text) : JsonValue := .string (Text.codePoints t)

/-- The string of a text, or nothing. -/
def ofText? : Option Text → JsonValue
  | none => .null
  | some t => ofText t

/-! ### Strings -/

/-- A unit of sixteen bits by its number. -/
def escapedUnit (u : Nat) : Text := '\\' :: 'u' :: Text.hex 4 u

/-- The escapes of one letter. -/
def shortEscapes : List (CodePoint × Char) :=
  [(0x08, 'b'), (0x09, 't'), (0x0A, 'n'), (0x0C, 'f'), (0x0D, 'r'), (0x22, '"'), (0x5C, '\\')]

/-- A code point within a string. -/
def escaped (p : CodePoint) : Text :=
  match shortEscapes.lookup p with
  | some letter => ['\\', letter]
  | none =>
    if 0x20 ≤ p && p ≤ 0x7E then [Char.ofNat p]
    else if p < 0x10000 then escapedUnit p
    else
      let beyond := p - 0x10000
      escapedUnit (0xD800 + beyond / 0x400) ++ escapedUnit (0xDC00 + beyond % 0x400)

/-- A string between quotes. -/
def quoted (s : Name) : Text := '"' :: s.flatMap escaped ++ ['"']

/-! ### Layout -/

/-- The start of a line at a depth. -/
def newLine (depth : Nat) : Text := '\n' :: List.replicate (2 * depth) ' '

/-- Pieces within brackets, each on a line of its own. -/
def block (depth : Nat) (first last : Char) (pieces : List Text) : Text :=
  if pieces.isEmpty then [first, last]
  else
    let inner := newLine (depth + 1)
    first :: inner ++ joinWith (',' :: inner) pieces ++ newLine depth ++ [last]

mutual

def textAt (depth : Nat) : JsonValue → Text
  | null => "null".toList
  | bool b => (if b then "true" else "false").toList
  | string s => quoted s
  | list items => block depth '[' ']' (itemTexts (depth + 1) items)
  | record fields => block depth '\x7b' '\x7d' (fieldTexts (depth + 1) fields)

def itemTexts (depth : Nat) : List JsonValue → List Text
  | [] => []
  | item :: more => textAt depth item :: itemTexts depth more

/-- The fields of a record. -/
def fieldTexts (depth : Nat) : List (Name × JsonValue) → List Text
  | [] => []
  | (key, value) :: more => (quoted key ++ ": ".toList ++ textAt depth value) :: fieldTexts depth more

end

/-- **The text of a value.** -/
def toText (v : JsonValue) : Text := textAt 0 v

end JsonValue

end Unjar
