import Unjar.Xml.Character

/-!
Text with references.

Between an ampersand and a semicolon stands a reference: to a character by its number, or to an
entity by its name.  Five entities are built in and stand for one character each.  A text with
references is a list of pieces; what the other entities stand for is looked up later.

Main definitions:

* `Unjar.Xml.Piece` — a character or an entity;
* `Unjar.Xml.Piece.ofReference?` — what stands between ampersand and semicolon;
* `Unjar.Xml.Piece.ofText?` — the pieces of a text;
* `Unjar.Xml.Piece.read?` — the pieces of a text whose built-in entities are resolved.
-/

set_option autoImplicit false

namespace Unjar.Xml

/-- **A piece of a text with references.** -/
inductive Piece where
  /-- A character that stands for itself. -/
  | plain (c : Char)
  /-- A character that is referred to. -/
  | referred (c : Char)
  | entity (name : Text)
deriving DecidableEq, Repr

/-- The characters that the built-in entities stand for. -/
def builtInEntities : List (Text × Char) :=
  [("lt".toList, '<'), ("gt".toList, '>'), ("amp".toList, '&'), ("quot".toList, '"'),
    ("apos".toList, '\'')]

/-- The value of a hexadecimal digit. -/
def hexDigit? (c : Char) : Option Nat :=
  if c.isDigit then some (c.toNat - '0'.toNat)
  else if 'a' ≤ c ∧ c ≤ 'f' then some (c.toNat - 'a'.toNat + 10)
  else if 'A' ≤ c ∧ c ≤ 'F' then some (c.toNat - 'A'.toNat + 10)
  else none

/-- The value of a decimal digit. -/
def decimalDigit? (c : Char) : Option Nat :=
  if c.isDigit then some (c.toNat - '0'.toNat) else none

/-- The number that digits spell in a base; there is at least one digit. -/
def number? (base : Nat) (digit? : Char → Option Nat) (t : Text) : Option Nat := do
  if t.isEmpty then none
  let digits ← t.mapM digit?
  pure (digits.foldl (fun n d => base * n + d) 0)

/-- The character of a number, if a document may hold it. -/
def characterOf? (n : Nat) : Option Char :=
  if n.isValidChar && isCharacter (Char.ofNat n) then some (Char.ofNat n) else none

namespace Piece

/-- What stands between an ampersand and a semicolon. -/
def ofReference? : Text → Option Piece
  | '#' :: 'x' :: digits => ((number? 16 hexDigit? digits).bind characterOf?).map referred
  | '#' :: digits => ((number? 10 decimalDigit? digits).bind characterOf?).map referred
  | name => if isName name then some (entity name) else none

/-- The pieces of a text that follows an ampersand and holds no other. -/
def behindAmpersand? (t : Text) : Option (List Piece) := do
  let (reference, rest) ← cutAtFirst ';' t
  let piece ← ofReference? reference
  pure (piece :: rest.map plain)

/-- **The pieces of a text**, if all its references are well formed. -/
def ofText? (t : Text) : Option (List Piece) := do
  match splitOn '&' t with
  | [] => pure []
  | first :: others => do
    let others ← others.mapM behindAmpersand?
    pure (first.map plain ++ others.flatten)

/-- A built-in entity gives way to its character. -/
def resolveBuiltIn : Piece → Piece
  | entity name =>
    match builtInEntities.lookup name with
    | some c => referred c
    | none => entity name
  | piece => piece

/-- The pieces of a text whose built-in entities are resolved. -/
def read? (t : Text) : Option (List Piece) := (ofText? t).map (·.map resolveBuiltIn)

end Piece

end Unjar.Xml
