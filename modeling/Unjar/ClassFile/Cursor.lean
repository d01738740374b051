import Unjar.ClassFile.Malformed

/-!
A reading position in a byte sequence.

Class files are read from front to back, in big-endian numbers and in blocks whose size the file
itself gives.  A `Cursor` holds what lies ahead of the reading position; a read takes bytes from
its front or fails without moving.

Main definitions:

* `Unjar.Cursor`, `Unjar.Cursor.start` — a position, and the one before the first byte;
* `Unjar.Cursor.take` — the read on which all others rest;
* `Unjar.Decoder` — reads in sequence.
-/

set_option autoImplicit false

namespace Unjar

/-- The first `n` elements and the rest, if there are that many. -/
def takeExactly {α : Type} : Nat → List α → Option (List α × List α)
  | 0, l => some ([], l)
  | _ + 1, [] => none
  | n + 1, a :: l => (takeExactly n l).map fun (front, rest) => (a :: front, rest)

/-- The number that a sequence of bytes spells, its most significant byte first. -/
def bigEndian (bytes : Bytes) : Nat := bytes.foldl (fun n b => n * 256 + b.toNat) 0

/-- The number of values of so many bits. -/
def valuesOfBits (count : Nat) : Nat := Nat.pow 2 count

/-- A number of `8 * size` bits read as two's complement. -/
def signed (size n : Nat) : Int :=
  if n < valuesOfBits (8 * size - 1) then n else (n : Int) - valuesOfBits (8 * size)

/-- A reading position. -/
structure Cursor where
  /-- The distance from the first byte. -/
  offset : Nat
  /-- The bytes at and after the position. -/
  ahead : Bytes
  /-- How far the position lies beyond the end. -/
  beyond : Nat
deriving DecidableEq, Repr

/-- The result of a read together with the position after it. -/
abbrev Decoder (α : Type) := StateT Cursor (Except Malformed) α

namespace Cursor

/-- A position at a distance from the first byte, possibly beyond the last. -/
def startAt (bytes : Bytes) (offset : Nat) : Cursor :=
  ⟨offset, bytes.drop offset, offset - bytes.length⟩

/-- The position before the first byte. -/
def start (bytes : Bytes) : Cursor := ⟨0, bytes, 0⟩

/-- The number of bytes ahead, negative beyond the end. -/
def remaining (c : Cursor) : Int := c.ahead.length - c.beyond

/-- Taking a block of bytes.  A negative size, and one that exceeds what remains, is refused. -/
def take (size : Int) : Decoder Bytes := fun c =>
  let refused := Except.error (.truncated size c.offset c.remaining)
  if size < 0 ∨ c.beyond ≠ 0 then refused
  else match takeExactly size.toNat c.ahead with
    | none => refused
    | some (block, rest) => .ok (block, { c with offset := c.offset + size.toNat, ahead := rest })

/-- An unsigned number of `size` bytes. -/
def unsigned (size : Nat) : Decoder Nat := bigEndian <$> take size

/-- A number of one byte. -/
def u1 : Decoder Nat := unsigned 1

/-- A number of two bytes. -/
def u2 : Decoder Nat := unsigned 2

/-- A number of four bytes. -/
def u4 : Decoder Nat := unsigned 4

/-- A signed number of four bytes. -/
def s4 : Decoder Int := signed 4 <$> unsigned 4

/-- Passing over a block of bytes. -/
def skip (size : Int) : Decoder Unit := (fun _ => ()) <$> take size

/-- The same read a number of times. -/
def times {α : Type} (read : Decoder α) : Nat → Decoder (List α)
  | 0 => pure []
  | n + 1 => do
    let first ← read
    let rest ← times read n
    pure (first :: rest)

end Cursor

end Unjar
