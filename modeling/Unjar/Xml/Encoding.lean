import Unjar.Text.Utf8
import Unjar.Xml.Codec
import Unjar.Xml.Markup

/-!
The declaration at the head of a document, and its encoding.

A document may declare its version, its encoding and whether it stands alone.  The bytes of a
document show by a mark in front of them, or by the zeros among the first two, whether they hold
sixteen-bit units; otherwise the declaration tells the encoding, which is UTF-8 where nothing is
told.  A few encodings are known by their names; all others are looked up in the registry.

Main definitions:

* `Unjar.Xml.Heading`, `Unjar.Xml.Heading.read?` — the declaration, and what follows it;
* `Unjar.Xml.decode?` — the text of the bytes of a document.
-/

set_option autoImplicit false

namespace Unjar.Xml

/-! ### The declaration -/

/-- **The declaration at the head of a document.** -/
structure Heading where
  /-- The name of the encoding. -/
  encoding : Option Text
  /-- Whether the document says that it stands alone. -/
  standsAlone : Bool
deriving DecidableEq, Repr

namespace Heading

/-- The document that declares nothing. -/
def empty : Heading := ⟨none, false⟩

/-- The characters of the values of a declaration. -/
def isValueCharacter (c : Char) : Bool := c.isAlphanum || c == '.' || c == '-' || c == '_'

/-- A name, an equals sign and a value in quotes, and what follows them. -/
def readItem? (t : Text) : Option ((Text × Text) × Text) := do
  let name := t.takeWhile Char.isAlpha
  match dropSpaces (t.dropWhile Char.isAlpha) with
  | '=' :: r =>
    match dropSpaces r with
    | quote :: r =>
      if quote != '"' && quote != '\'' then none
      else do
        let (value, rest) ← cutAtFirst quote r
        if value.all isValueCharacter then pure ((name, value), rest) else none
    | [] => none
  | _ => none

/-- At most `count` items, each with white space before it, up to the end of the text. -/
def readItems? : Nat → Text → Option (List (Text × Text))
  | 0, t => if (dropSpaces t).isEmpty then some [] else none
  | count + 1, t =>
    let r := dropSpaces t
    if r.isEmpty then some []
    else if r.length = t.length then none
    else do
      let (item, rest) ← readItem? r
      pure (item :: (← readItems? count rest))

/-- What the items tell.  The version comes first, and any is accepted. -/
def ofItems? (items : List (Text × Text)) : Option Heading := do
  match items with
  | (first, _) :: more =>
    if first != "version".toList then none
    let (encoding, more) := match more with
      | (name, value) :: rest => if name == "encoding".toList then (some value, rest) else (none, more)
      | [] => (none, [])
    if (encoding.any fun e => !(e.head?.any Char.isAlpha)) then none
    match more with
    | [] => pure ⟨encoding, false⟩
    | [(name, value)] =>
      if name != "standalone".toList then none
      else if value == "yes".toList then pure ⟨encoding, true⟩
      else if value == "no".toList then pure ⟨encoding, false⟩
      else none
    | _ => none
  | [] => none

/-- What opens the declaration. -/
def opening : Text := "<?xml".toList

/-- Whether a text begins with a declaration, right or wrong. -/
def isAhead (t : Text) : Bool :=
  match dropPrefix? opening t with
  | some (c :: _) => !isNameCharacter c
  | _ => false

/-- **The declaration at the head of a text**, and what follows it. -/
def read? (t : Text) : Option (Heading × Text) := do
  if !isAhead t then pure (empty, t)
  else do
    let (items, rest) ← cutAtPattern "?>".toList (t.drop opening.length)
    pure (← ofItems? (← readItems? 3 items), rest)

end Heading

/-! ### Sixteen-bit units -/

/-- The order of the two bytes of a unit. -/
inductive ByteOrder where
  | bigEndian
  | littleEndian
deriving DecidableEq, Repr

/-- A unit of two bytes. -/
def ByteOrder.unit (order : ByteOrder) (first second : UInt8) : Nat :=
  match order with
  | bigEndian => first.toNat * 256 + second.toNat
  | littleEndian => second.toNat * 256 + first.toNat

/-- The units of bytes; a single byte at the end makes none. -/
def units (order : ByteOrder) : Bytes → List Nat
  | a :: b :: r => order.unit a b :: units order r
  | _ => []

/-- The characters of units.  A unit that opens a pair takes the ten low bits of the next, whatever
that is; one that closes a pair cannot stand alone. -/
def charactersOf? : List Nat → Option Text
  | [] => some []
  | u :: r =>
    if 0xDC00 ≤ u && u < 0xE000 then none
    else if 0xD800 ≤ u && u < 0xDC00 then
      match r with
      | [] => none
      | v :: r => (charactersOf? r).map (Char.ofNat (0x10000 + (u % 1024) * 1024 + v % 1024) :: ·)
    else (charactersOf? r).map (Char.ofNat u :: ·)

/-! ### Encodings -/

/-- How the first bytes show that a document holds sixteen-bit units, and the bytes behind a mark
of their order. -/
def wideForm? : Bytes → Option (ByteOrder × Bytes)
  | 0xFE :: 0xFF :: r => some (.bigEndian, r)
  | 0xFF :: 0xFE :: r => some (.littleEndian, r)
  | 0x00 :: b :: r => some (.bigEndian, 0x00 :: b :: r)
  | a :: 0x00 :: r => some (.littleEndian, a :: 0x00 :: r)
  | _ => none

/-- Bytes without the mark that shows UTF-8. -/
def dropMark : Bytes → Bytes
  | 0xEF :: 0xBB :: 0xBF :: r => r
  | bytes => bytes

/-- Whether a document of sixteen-bit units may declare an encoding. -/
def agreesWith (order : ByteOrder) (encoding : Text) : Bool :=
  let name := encoding.map Char.toLower
  name == "utf-16".toList ||
    name == (match order with
      | .bigEndian => "utf-16be".toList
      | .littleEndian => "utf-16le".toList)

/-- The encodings that are known without the registry. -/
def basicEncodings : List Text :=
  ["utf-8", "iso-8859-1", "us-ascii", "utf-16", "utf-16be", "utf-16le"].map String.toList

/-- The text of bytes in an encoding that a document declares. -/
def decodeAs? (encoding : Text) (bytes : Bytes) : Except EncodingFault (Option Text) :=
  let name := encoding.map Char.toLower
  if name == "utf-8".toList then .ok (Utf8.decode bytes)
  else if name == "iso-8859-1".toList then .ok (ByteSet.latin1.decode? bytes)
  else if name == "us-ascii".toList then .ok (ByteSet.ascii.decode? bytes)
  else if basicEncodings.contains name then .ok none
  else (byteSet? encoding).map fun set? => set?.bind fun set => set.decode? bytes

/-- The text of sixteen-bit units; no other encoding may be declared for them. -/
def decodeWide? (order : ByteOrder) (bytes : Bytes) : Except EncodingFault (Option Text) := do
  let found := units order bytes
  let t? := if bytes.length % 2 = 0 then charactersOf? found else none
  match Heading.read? (found.map Char.ofNat) with
  | none => pure none
  | some (heading, _) =>
    match heading.encoding with
    | none => pure t?
    | some encoding =>
      if agreesWith order encoding then pure t?
      else if basicEncodings.contains (encoding.map Char.toLower) then pure none
      else (byteSet? encoding).map fun _ => none

/-- **The text of the bytes of a document**, if they have one. -/
def decode? (bytes : Bytes) : Except EncodingFault (Option Text) :=
  match wideForm? bytes with
  | some (order, bytes) => decodeWide? order bytes
  | none =>
    let bytes := dropMark bytes
    match Heading.read? (bytes.map fun b => Char.ofNat b.toNat) with
    | none => .ok none
    | some (heading, _) => decodeAs? (heading.encoding.getD "utf-8".toList) bytes

/-- A text without the mark in front of it. -/
def dropTextMark : Text → Text
  | '\uFEFF' :: r => r
  | t => t

end Unjar.Xml
