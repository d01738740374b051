import Unjar.Text

/-!
UTF-8.

A byte sequence falls into parts: each is the encoding of one character, or a maximal start of
such an encoding that the next byte does not continue.  Reading strictly refuses the second kind,
reading leniently puts the replacement character in the place of each.

Main definitions:

* `Unjar.Utf8.encode` — the bytes of a text;
* `Unjar.Utf8.parts` — the parts of a byte sequence;
* `Unjar.Utf8.decode` — strict reading;
* `Unjar.Utf8.decodeLossy` — lenient reading;
* `Unjar.Utf8.flaw?` — the first part that is no character.
-/

set_option autoImplicit false

namespace Unjar.Utf8

/-- The bytes of a text: one to four per character. -/
def encode (t : Text) : Bytes := t.flatMap String.utf8EncodeChar

/-- A character whose first bytes have been read. -/
structure Pending where
  /-- The number of bytes still to come. -/
  owed : Nat
  /-- The least next byte. -/
  low : UInt8
  /-- The greatest next byte. -/
  high : UInt8
  /-- The bits read so far. -/
  bits : Nat

/-- What the first byte of a part announces. -/
inductive Lead where
  /-- A character of one byte. -/
  | single (c : Char)
  /-- A character of several bytes. -/
  | opens (p : Pending)
  /-- No character begins so. -/
  | stray

/-- The announcement of a first byte.  The bounds on the second byte leave out overlong forms,
surrogates and numbers above `10FFFF`. -/
def lead (b : UInt8) : Lead :=
  if b < 0x80 then .single (Char.ofNat b.toNat)
  else if b < 0xC2 then .stray
  else if b < 0xE0 then .opens ⟨1, 0x80, 0xBF, b.toNat - 0xC0⟩
  else if b == 0xE0 then .opens ⟨2, 0xA0, 0xBF, 0⟩
  else if b == 0xED then .opens ⟨2, 0x80, 0x9F, 0xD⟩
  else if b < 0xF0 then .opens ⟨2, 0x80, 0xBF, b.toNat - 0xE0⟩
  else if b == 0xF0 then .opens ⟨3, 0x90, 0xBF, 0⟩
  else if b < 0xF4 then .opens ⟨3, 0x80, 0xBF, b.toNat - 0xF0⟩
  else if b == 0xF4 then .opens ⟨3, 0x80, 0x8F, 4⟩
  else .stray

/-- The parts of what follows a pending character: a character each, or nothing for an invalid
part. -/
def partsFrom : Option Pending → Bytes → List (Option Char)
  | none, [] => []
  | some _, [] => [none]
  | none, b :: r =>
    match lead b with
    | .single c => some c :: partsFrom none r
    | .opens p => partsFrom (some p) r
    | .stray => none :: partsFrom none r
  | some p, b :: r =>
    if p.low ≤ b ∧ b ≤ p.high then
      let bits := p.bits * 64 + (b.toNat - 0x80)
      if p.owed ≤ 1 then some (Char.ofNat bits) :: partsFrom none r
      else partsFrom (some ⟨p.owed - 1, 0x80, 0xBF, bits⟩) r
    else
      none :: match lead b with
        | .single c => some c :: partsFrom none r
        | .opens q => partsFrom (some q) r
        | .stray => none :: partsFrom none r

/-- The parts of a byte sequence. -/
def parts (bytes : Bytes) : List (Option Char) := partsFrom none bytes

/-- The text that a byte sequence encodes, if every part of it is a character. -/
def decode (bytes : Bytes) : Option Text := (parts bytes).mapM id

/-- The text of a byte sequence, with the replacement character for every invalid part. -/
def decodeLossy (bytes : Bytes) : Text := (parts bytes).map (·.getD '\uFFFD')

/-! ### Flaws -/

/-- Why a part is no character. -/
inductive FlawReason where
  /-- No character begins so. -/
  | start
  /-- The next byte does not go on with the character. -/
  | continuation
  /-- The bytes end within the character. -/
  | cutShort
deriving DecidableEq, Repr

/-- A part that is no character. -/
structure Flaw where
  /-- The number of bytes before it. -/
  position : Nat
  bytes : Bytes
  reason : FlawReason
deriving DecidableEq, Repr

/-- The first flaw of what follows a pending character, whose bytes are `held` and end at a
position. -/
def flawFrom? (position : Nat) (held : Bytes) : Option Pending → Bytes → Option Flaw
  | none, [] => none
  | some _, [] => some ⟨position - held.length, held, .cutShort⟩
  | none, b :: r =>
    match lead b with
    | .single _ => flawFrom? (position + 1) [] none r
    | .opens p => flawFrom? (position + 1) [b] (some p) r
    | .stray => some ⟨position, [b], .start⟩
  | some p, b :: r =>
    if p.low ≤ b ∧ b ≤ p.high then
      let bits := p.bits * 64 + (b.toNat - 0x80)
      if p.owed ≤ 1 then flawFrom? (position + 1) [] none r
      else flawFrom? (position + 1) (held ++ [b]) (some ⟨p.owed - 1, 0x80, 0xBF, bits⟩) r
    else some ⟨position - held.length, held, .continuation⟩

/-- **The first part that is no character.** -/
def flaw? (bytes : Bytes) : Option Flaw := flawFrom? 0 [] none bytes

/-- A reason in words. -/
def FlawReason.message : FlawReason → Text
  | start => "invalid start byte".toList
  | continuation => "invalid continuation byte".toList
  | cutShort => "unexpected end of data".toList

/-- A flaw in words: a single byte is shown, and several are told by their positions. -/
def Flaw.message (f : Flaw) : Text :=
  let place := match f.bytes with
    | [b] => "byte 0x".toList ++ Text.hex 2 b.toNat ++ " in position ".toList ++ Text.ofNat f.position
    | bytes => "bytes in position ".toList ++ Text.ofNat f.position ++ '-' ::
        Text.ofNat (f.position + bytes.length - 1)
  "'utf-8' codec can't decode ".toList ++ place ++ ": ".toList ++ f.reason.message

end Unjar.Utf8
