import Unjar.Text

/-!
Names in class files.

A class file writes its strings in a UTF-8 of its own: the code units of UTF-16 are encoded one by
one, so that a supplementary character becomes two surrogates of three bytes each, and zero is
written in two bytes.  Lone surrogates occur.  A `Name` is therefore a list of code points in which
surrogates are allowed.

Main definitions:

* `Unjar.Name` — a list of code points;
* `Unjar.Name.decode` — reading a name;
* `Unjar.Name.encodeUnits` — the class-file encoding of a sequence of UTF-16 code units;
* `Unjar.Name.encodeUtf8` — the ordinary encoding of a text, which readers accept too;
* `Unjar.Name.dotted` — slashes turned into dots.
-/

set_option autoImplicit false

namespace Unjar

/-- A number from zero to `10FFFF`; surrogates are code points. -/
abbrev CodePoint := Nat

/-- A string of a class file. -/
abbrev Name := List CodePoint

def Text.codePoints (t : Text) : Name := t.map Char.toNat

namespace Name

/-- The name that a literal spells. -/
def ofString (s : String) : Name := Text.codePoints s.toList

/-- The text of a name, unless a surrogate stands in it. -/
def toText? (n : Name) : Option Text :=
  n.mapM fun p => if p.isValidChar then some (Char.ofNat p) else none

/-- Names are ordered by their code points. -/
def le (a b : Name) : Bool := !(decide (b < a))

/-! ### Decoding -/

/-- The six bits of a byte that continues a code point. -/
def tailBits (b : UInt8) : Option Nat :=
  if 0x80 ≤ b ∧ b ≤ 0xBF then some (b.toNat - 0x80) else none

/-- **Reading a name.**  Code points take one to four bytes, surrogates three like their
neighbours, and zero may also be the pair `C0 80`; nothing is read from a form that is longer than
needed, too large or incomplete. -/
def decode : Bytes → Option Name
  | [] => some []
  | a :: r =>
    if a < 0x80 then (decode r).map (a.toNat :: ·)
    else match r with
      | [] => none
      | b :: r =>
        if a == 0xC0 then
          if b == 0x80 then (decode r).map (0 :: ·) else none
        else match tailBits b with
          | none => none
          | some x =>
            if a < 0xC2 then none
            else if a < 0xE0 then (decode r).map (((a.toNat - 0xC0) * 64 + x) :: ·)
            else match r with
              | [] => none
              | c :: r =>
                match tailBits c with
                | none => none
                | some y =>
                  if a < 0xF0 then
                    let p := ((a.toNat - 0xE0) * 64 + x) * 64 + y
                    if p < 0x800 then none else (decode r).map (p :: ·)
                  else match r with
                    | [] => none
                    | d :: r =>
                      match tailBits d with
                      | none => none
                      | some z =>
                        let p := (((a.toNat - 0xF0) * 64 + x) * 64 + y) * 64 + z
                        if p < 0x10000 ∨ 0x10FFFF < p then none
                        else (decode r).map (p :: ·)

/-! ### Encoding -/

/-- The class-file encoding of one UTF-16 code unit: zero takes two bytes. -/
def encodeUnit (u : UInt16) : Bytes :=
  let n := u.toNat
  if n != 0 && n < 0x80 then [UInt8.ofNat n]
  else if n < 0x800 then [UInt8.ofNat (0xC0 + n / 64), UInt8.ofNat (0x80 + n % 64)]
  else [UInt8.ofNat (0xE0 + n / 4096), UInt8.ofNat (0x80 + n / 64 % 64),
    UInt8.ofNat (0x80 + n % 64)]

/-- The class-file encoding of a sequence of UTF-16 code units. -/
def encodeUnits (units : List UInt16) : Bytes := units.flatMap encodeUnit

/-- The ordinary UTF-8 encoding of a text. -/
def encodeUtf8 (t : Text) : Bytes := t.flatMap String.utf8EncodeChar

/-! ### Dotted names -/

/-- `java/util/Map$Entry` becomes `java.util.Map$Entry`. -/
def dotted (n : Name) : Name := n.map fun p => if p == '/'.toNat then '.'.toNat else p

end Name

end Unjar
