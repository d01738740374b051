import Unjar.Text

/-!
Decimal numbers.

Durations are binary floating-point numbers; they are written with the fewest decimal digits that
read back as the same number, and rounded to thousandths on their exact value.  All of this is done
on the integers `m` and `q` of the value `m · 2 ^ q`.

Main definitions:

* `Unjar.Binary`, `Unjar.Binary.ofBits` — a finite value as an integer times a power of two;
* `Unjar.Binary.shortest` — the fewest digits that identify a value;
* `Unjar.Decimal.toText` — a number in text;
* `Unjar.Decimal.roundToThousandths` — the nearest number of thousandths, ties to even;
* `Unjar.Decimal.parse` — the number that a text spells.
-/

set_option autoImplicit false

namespace Unjar

/-! ### Exact values -/

/-- The value `mantissa · 2 ^ exponent`. -/
structure Binary where
  /-- The integer part of the product. -/
  mantissa : Nat
  /-- The power of two. -/
  exponent : Int
  /-- Whether the neighbour below is only half as far away as the one above. -/
  narrowBelow : Bool
deriving DecidableEq, Repr

namespace Binary

/-- The magnitude of a finite number, from its bits. -/
def ofBits (bits : UInt64) : Binary :=
  let field := ((bits >>> 52) &&& 0x7FF).toNat
  let fraction := (bits &&& 0xFFFFFFFFFFFFF).toNat
  if field = 0 then ⟨fraction, -1074, false⟩
  else ⟨Nat.pow 2 52 + fraction, (field : Int) - 1075, fraction = 0 && 1 < field⟩

/-- The numerator of a value. -/
def numerator (b : Binary) : Nat := b.mantissa * Nat.pow 2 b.exponent.toNat

/-- The denominator of a value. -/
def denominator (b : Binary) : Nat := Nat.pow 2 (-b.exponent).toNat

/-- Whether `digits · 10 ^ scale` lies among the reals that round to a value: from halfway to the
neighbour below to halfway to the neighbour above, the ends included when the mantissa is even. -/
def readsBack (b : Binary) (digits : Nat) (scale : Int) : Bool :=
  let decimal := 4 * digits * Nat.pow 10 scale.toNat * b.denominator
  let unit := Nat.pow 2 b.exponent.toNat * Nat.pow 10 (-scale).toNat
  let low := (4 * b.mantissa - if b.narrowBelow then 1 else 2) * unit
  let high := (4 * b.mantissa + 2) * unit
  if b.mantissa % 2 = 0 then low ≤ decimal && decimal ≤ high
  else low < decimal && decimal < high

/-- The least `k` with the value below `10 ^ k`, for a value above zero. -/
def magnitude (b : Binary) : Int :=
  let n := b.numerator
  let d := b.denominator
  if d ≤ n then (Nat.toDigits 10 (n / d)).length
  else
    let a := (Nat.toDigits 10 (d / n)).length
    if d ≤ n * Nat.pow 10 (a - 1) then 2 - (a : Int) else 1 - (a : Int)

/-- Of the two multiples of `10 ^ scale` around a value, the one that reads back; of both the
nearer, and of two equally near the even one. -/
def onGrid (b : Binary) (scale : Int) : Option Nat :=
  let n := b.numerator * Nat.pow 10 (-scale).toNat
  let d := b.denominator * Nat.pow 10 scale.toNat
  let below := n / d
  match b.readsBack below scale, b.readsBack (below + 1) scale with
  | false, false => none
  | true, false => some below
  | false, true => some (below + 1)
  | true, true =>
    let twice := 2 * (n % d)
    if twice < d || (twice = d && below % 2 = 0) then some below else some (below + 1)

/-- The fewest digits that read back, at least `count` of them, and the power of ten of the last
one; `fuel` more digits are tried. -/
def shortestFrom (b : Binary) : Nat → Nat → Nat × Int
  | 0, count => ((b.onGrid (b.magnitude - count)).getD 0, b.magnitude - count)
  | fuel + 1, count =>
    match b.onGrid (b.magnitude - count) with
    | some digits => (digits, b.magnitude - count)
    | none => shortestFrom b fuel (count + 1)

/-- The fewest digits that read back as a value above zero, and the power of ten of the last one.
Seventeen digits always suffice. -/
def shortest (b : Binary) : Nat × Int := b.shortestFrom 16 1

end Binary

namespace Decimal

/-! ### Writing -/

/-- Digits without the zeros at their end, and how many of those there were. -/
def dropZeros (digits : Text) : Text × Nat :=
  let zeros := (digits.reverse.takeWhile (· == '0')).length
  (digits.take (digits.length - zeros), zeros)

/-- Digits laid out.  The first stands at the power `top` of ten; from `-4` to `15` the notation is
positional with at least one digit on either side of the point, otherwise it has an exponent of a
sign and at least two digits. -/
def layout (digits : Text) (top : Int) : Text :=
  if -4 ≤ top ∧ top < 0 then "0.".toList ++ List.replicate (-top - 1).toNat '0' ++ digits
  else if 0 ≤ top ∧ top < 16 then
    let whole := top.toNat + 1
    let padded := digits ++ List.replicate (whole - digits.length) '0'
    let fraction := padded.drop whole
    padded.take whole ++ ['.'] ++ if fraction.isEmpty then ['0'] else fraction
  else
    let fraction := digits.drop 1
    let power := Text.ofNat top.natAbs
    digits.take 1 ++ (if fraction.isEmpty then [] else '.' :: fraction) ++
      ['e', if top < 0 then '-' else '+'] ++ (if power.length < 2 then ['0'] else []) ++ power

/-- **A number in text**, with the fewest digits that read back. -/
def toText (x : Float) : Text :=
  if x.isNaN then "nan".toList
  else
    let sign := if x.toBits >>> 63 = 1 then ['-'] else []
    let b := Binary.ofBits x.toBits
    sign ++
      if x.isInf then "inf".toList
      else if b.mantissa = 0 then "0.0".toList
      else
        let (n, scale) := b.shortest
        let all := Text.ofNat n
        layout (dropZeros all).1 (scale + all.length - 1)

/-! ### Rounding -/

/-- A quotient rounded to the nearest integer, ties to even. -/
def roundDiv (n d : Nat) : Nat :=
  let below := n / d
  let twice := 2 * (n % d)
  if twice < d || (twice = d && below % 2 = 0) then below else below + 1

/-- The number nearest to a number of thousandths. -/
def ofThousandths (n : Nat) : Float := Float.ofScientific n true 3

/-- A number rounded to thousandths on its exact value. -/
def roundToThousandths (x : Float) : Float :=
  if x.isNaN || x.isInf then x
  else
    let b := Binary.ofBits x.toBits
    let rounded := ofThousandths (roundDiv (1000 * b.numerator) b.denominator)
    if x.toBits >>> 63 = 1 then -rounded else rounded

/-! ### Reading -/

/-- The digits at the front of a text, and what follows them. -/
def spanDigits (t : Text) : Text × Text := (t.takeWhile Char.isDigit, t.dropWhile Char.isDigit)

/-- The number that digits spell. -/
def ofDigits (digits : Text) : Nat :=
  digits.foldl (fun n c => n * 10 + (c.toNat - '0'.toNat)) 0

/-- A sign at the front of a text, and what follows it. -/
def spanSign : Text → Bool × Text
  | '-' :: r => (true, r)
  | '+' :: r => (false, r)
  | r => (false, r)

/-- The power of ten that ends a number, if the rest of the text is one. -/
def parseExponent : Text → Option Int
  | [] => some 0
  | c :: r =>
    if c == 'e' || c == 'E' then
      let (negative, r) := spanSign r
      let (digits, rest) := spanDigits r
      if digits.isEmpty || !rest.isEmpty then none
      else some (if negative then -(ofDigits digits : Int) else ofDigits digits)
    else none

/-- The number `n · 10 ^ exponent`, infinite or zero where the power is out of all bounds. -/
def scaled (n digitCount : Nat) (exponent : Int) : Float :=
  if n = 0 then 0.0
  else if 400 < exponent + digitCount then 1.0 / 0.0
  else if exponent + digitCount < -400 then 0.0
  else Float.ofScientific n (exponent < 0) exponent.natAbs

/-- An unsigned number: digits with at most one point among them and an exponent, or one of the
words for infinity and for no number. -/
def parseMagnitude (t : Text) : Option Float :=
  let word := t.map Char.toLower
  if word == "inf".toList || word == "infinity".toList then some (1.0 / 0.0)
  else if word == "nan".toList then some (0.0 / 0.0)
  else
    let (whole, rest) := spanDigits t
    let (fraction, rest) := match rest with
      | '.' :: r => spanDigits r
      | r => ([], r)
    let digits := whole ++ fraction
    if digits.isEmpty then none
    else (parseExponent rest).map fun exponent =>
      scaled (ofDigits digits) digits.length (exponent - fraction.length)

/-- **The number that a text spells**, with or without a sign. -/
def parse (t : Text) : Option Float :=
  let (negative, magnitude) := spanSign t
  (parseMagnitude magnitude).map fun x => if negative then -x else x

end Decimal

end Unjar
