import Unjar.ClassFile

/-!
Building class files.

A builder collects constants and members and lays them out as a class file.  Equal constants share
a slot.  A request whose numbers do not fit their fields fails, and the constants that it had
already placed stay.

Main definitions:

* `Unjar.ClassFileBuilder`, `Unjar.ClassFileBuilder.start` — a class file in the making;
* `Unjar.ClassFileBuilder.place` — the index of a constant, placed when it is new;
* `Unjar.ClassFileBuilder.addField`, `Unjar.ClassFileBuilder.addMethod` — members;
* `Unjar.ClassFileBuilder.build` — the bytes;
* `Unjar.Instruction.encode` — the bytes of one instruction.
-/

set_option autoImplicit false

namespace Unjar

/-- A number that does not fit its field. -/
inductive OutOfRange where
  | outOfRange
deriving DecidableEq, Repr

/-! ### Numbers -/

/-- The `size` lowest bytes of a number, the most significant first. -/
def bytesOfNat : Nat → Nat → Bytes
  | 0, _ => []
  | size + 1, n => bytesOfNat size (n / 256) ++ [UInt8.ofNat (n % 256)]

/-- The two's complement of `size` bytes of a number. -/
def bytesOfInt (size : Nat) (n : Int) : Bytes :=
  bytesOfNat size (n % valuesOfBits (8 * size)).toNat

/-- An unsigned number in `size` bytes, if it fits. -/
def unsignedField (size : Nat) (n : Int) : Except OutOfRange Bytes :=
  if 0 ≤ n ∧ n < valuesOfBits (8 * size) then .ok (bytesOfNat size n.toNat) else .error .outOfRange

/-- A signed number in `size` bytes, if it fits. -/
def signedField (size : Nat) (n : Int) : Except OutOfRange Bytes :=
  let bound : Int := valuesOfBits (8 * size - 1)
  if -bound ≤ n ∧ n < bound then .ok (bytesOfInt size n) else .error .outOfRange

/-! ### Constants -/

namespace Constant

/-- The bytes of a constant whose string, if it has one, is already encoded. -/
def encodeWith (text : Bytes) (c : Constant) : Bytes :=
  UInt8.ofNat c.tag :: match c with
    | utf8 _ => bytesOfNat 2 text.length ++ text
    | integer raw | float raw | long raw | double raw | methodHandle raw => raw
    | classRef i | string i | methodType i | module i | package i => bytesOfNat 2 i
    | memberRef _ i j | nameAndType i j | dynamic i j | invokeDynamic i j =>
      bytesOfNat 2 i ++ bytesOfNat 2 j

end Constant

/-- A constant on its way into a class file: its strings are texts. -/
inductive Entry where
  /-- A string. -/
  | text (value : Text)
  | other (constant : Constant)
deriving DecidableEq, Repr

namespace Entry

/-- The constant that a reader finds. -/
def constant : Entry → Constant
  | text value => .utf8 (Text.codePoints value)
  | other constant => constant

/-- The bytes of a constant. -/
def encode : Entry → Bytes
  | text value => Constant.encodeWith (Name.encodeUtf8 value) (.utf8 (Text.codePoints value))
  | other constant => Constant.encodeWith [] constant

/-- The number of slots. -/
def slots (e : Entry) : Nat := e.constant.slots

/-- The index at which an entry stands in a list whose first entry has index `first`. -/
def indexIn (e : Entry) : Nat → List Entry → Option Nat
  | _, [] => none
  | first, d :: more => if d = e then some first else indexIn e (first + d.slots) more

end Entry

/-! ### The builder -/

/-- A member laid out as indices. -/
structure MemberLayout where
  /-- The access flags. -/
  access : Nat
  /-- The index of the name. -/
  name : Nat
  /-- The index of the descriptor. -/
  descriptor : Nat
  /-- The index of the name and the body of each attribute. -/
  attributes : List (Nat × Bytes)
deriving DecidableEq, Repr

/-- **A class file in the making.** -/
structure ClassFileBuilder where
  /-- The major version of the format. -/
  major : Int
  /-- The constants, in order. -/
  entries : List Entry
  /-- The index of the class. -/
  thisClass : Nat
  /-- The index of the superclass, zero for none. -/
  superClass : Nat
  /-- The indices of the interfaces. -/
  interfaces : List Nat
  fields : List MemberLayout
  methods : List MemberLayout
deriving DecidableEq, Repr

/-- A step of building.  A step that fails keeps the constants it has placed. -/
abbrev Building (α : Type) := ExceptT OutOfRange (StateM ClassFileBuilder) α

/-- A handler to be: the class it catches is given by name. -/
structure HandlerRequest where
  /-- The first offset covered. -/
  start : Int
  /-- The first offset no longer covered. -/
  stop : Int
  /-- Where the handler begins. -/
  handler : Int
  /-- The internal name of the class that is caught; none, or an empty one, catches all. -/
  catchType : Option Text
deriving DecidableEq, Repr

/-- A method to be. -/
structure MethodRequest where
  name : Text
  descriptor : Text
  /-- The instructions, if there are any. -/
  code : Option Bytes
  /-- The internal names of the declared exceptions. -/
  exceptions : List Text
  handlers : List HandlerRequest
  /-- The access flags. -/
  access : Int
deriving DecidableEq, Repr

namespace ClassFileBuilder

/-- The index that the next new constant gets. -/
def nextIndex (b : ClassFileBuilder) : Nat := b.entries.foldl (fun n e => n + e.slots) 1

/-- A number that has to fit two bytes. -/
def shortField (n : Int) : Building Bytes := unsignedField 2 n

/-- The index of an entry, which is placed at the end unless it is there already. -/
def place (e : Entry) : Building Nat := do
  let b ← get
  match e.indexIn 1 b.entries with
  | some index => pure index
  | none => do
    set { b with entries := b.entries ++ [e] }
    pure b.nextIndex

/-! ### Constants by their contents -/

/-- A string, of at most 65535 bytes. -/
def utf8 (value : Text) : Building Nat := do
  let _ ← shortField (Name.encodeUtf8 value).length
  place (.text value)

/-- A constant that refers to another. -/
def placeRef (make : Nat → Constant) (index : Nat) : Building Nat := do
  let _ ← shortField index
  place (.other (make index))

/-- A constant that refers to two others. -/
def placePair (make : Nat → Nat → Constant) (first second : Nat) : Building Nat := do
  let _ ← shortField first
  let _ ← shortField second
  place (.other (make first second))

def classRef (name : Text) : Building Nat := do placeRef .classRef (← utf8 name)

/-- A class, or zero where none is named; an empty name names none. -/
def classRefOrZero : Option Text → Building Nat
  | none | some [] => pure 0
  | some name => classRef name

/-- A string constant. -/
def string (value : Text) : Building Nat := do placeRef .string (← utf8 value)

/-- An integer constant. -/
def integer (n : Int) : Building Nat := do
  let raw ← signedField 4 n
  place (.other (.integer raw))

/-- A long constant. -/
def long (n : Int) : Building Nat := do
  let raw ← signedField 8 n
  place (.other (.long raw))

def nameAndType (name descriptor : Text) : Building Nat := do
  let name ← utf8 name
  let descriptor ← utf8 descriptor
  placePair .nameAndType name descriptor

/-- A reference to a member. -/
def memberRef (kind : MemberKind) (owner name descriptor : Text) : Building Nat := do
  let owner ← classRef owner
  let nameAndType ← nameAndType name descriptor
  placePair (.memberRef kind) owner nameAndType

/-- A dynamic call site. -/
def invokeDynamic (name descriptor : Text) (bootstrap : Int) : Building Nat := do
  let nameAndType ← nameAndType name descriptor
  let _ ← shortField bootstrap
  placePair .invokeDynamic bootstrap.toNat nameAndType

/-! ### Members -/

def layMember (name descriptor : Text) (access : Int) (attributes : List (Nat × Bytes)) :
    Building MemberLayout := do
  let name ← utf8 name
  let descriptor ← utf8 descriptor
  let _ ← [access, (name : Int), (descriptor : Int)].mapM shortField
  pure ⟨access.toNat, name, descriptor, attributes⟩

def addField (name descriptor : Text) (access : Int) : Building Unit := do
  let field ← layMember name descriptor access []
  modify fun b => { b with fields := b.fields ++ [field] }

/-- The row of a handler table. -/
def handlerRow (h : HandlerRequest) : Building Bytes := do
  let catchType ← classRefOrZero h.catchType
  let rows ← [h.start, h.stop, h.handler, (catchType : Int)].mapM shortField
  pure rows.flatten

/-- The body of a code attribute. -/
def codeBody (code : Bytes) (handlers : List HandlerRequest) : Building Bytes := do
  let rows ← handlers.mapM handlerRow
  let size ← unsignedField 4 code.length
  let count ← shortField rows.length
  pure (bytesOfNat 2 8 ++ bytesOfNat 2 8 ++ size ++ code ++ count ++ rows.flatten ++ bytesOfNat 2 0)

/-- The body of an exceptions attribute. -/
def exceptionsBody (exceptions : List Text) : Building Bytes := do
  let count ← shortField exceptions.length
  let indices ← exceptions.mapM fun name => do shortField (← classRef name)
  pure (count ++ indices.flatten)

/-- An attribute under its name. -/
def namedAttribute (name : Text) (body : Bytes) : Building (Nat × Bytes) := do
  let index ← utf8 name
  let _ ← shortField index
  let _ ← unsignedField 4 body.length
  pure (index, body)

/-- The attribute for the code of a method, where it has any. -/
def codeAttributes (m : MethodRequest) : Building (List (Nat × Bytes)) :=
  match m.code with
  | none => pure []
  | some code => do pure [← namedAttribute "Code".toList (← codeBody code m.handlers)]

/-- The attribute for the exceptions of a method, where it declares any. -/
def exceptionsAttributes (m : MethodRequest) : Building (List (Nat × Bytes)) :=
  match m.exceptions with
  | [] => pure []
  | exceptions => do
    pure [← namedAttribute "Exceptions".toList (← exceptionsBody exceptions)]

/-- A method, with an attribute for its code and one for its exceptions where it has them. -/
def addMethod (m : MethodRequest) : Building Unit := do
  let code ← codeAttributes m
  let exceptions ← exceptionsAttributes m
  let method ← layMember m.name m.descriptor m.access (code ++ exceptions)
  modify fun b => { b with methods := b.methods ++ [method] }

/-! ### The whole file -/

/-- The builder before its first step. -/
def blank (major : Int) : ClassFileBuilder := ⟨major, [], 0, 0, [], [], []⟩

/-- The names of the class, of its superclass and of its interfaces. -/
def header (name : Text) (superName : Option Text) (interfaces : List Text) : Building Unit := do
  let thisClass ← classRef name
  let superClass ← classRefOrZero superName
  let interfaces ← interfaces.mapM classRef
  modify fun b => { b with thisClass, superClass, interfaces }

def encodeMember (m : MemberLayout) : Bytes :=
  bytesOfNat 2 m.access ++ bytesOfNat 2 m.name ++ bytesOfNat 2 m.descriptor ++
    bytesOfNat 2 m.attributes.length ++
    m.attributes.flatMap fun (name, body) =>
      bytesOfNat 2 name ++ bytesOfNat 4 body.length ++ body

/-- A table: its length and its rows. -/
def table {α : Type} (encode : α → Bytes) (rows : List α) : Except OutOfRange Bytes := do
  let count ← unsignedField 2 rows.length
  pure (count ++ rows.flatMap encode)

/-- The flags of a public class. -/
def publicClass : Nat := 0x0021

/-- **The bytes of the class file.** -/
def build (b : ClassFileBuilder) : Except OutOfRange Bytes := do
  let major ← unsignedField 2 b.major
  let poolSize ← unsignedField 2 b.nextIndex
  let thisClass ← unsignedField 2 b.thisClass
  let superClass ← unsignedField 2 b.superClass
  let interfaces ← table (bytesOfNat 2) b.interfaces
  let fields ← table encodeMember b.fields
  let methods ← table encodeMember b.methods
  pure (bytesOfNat 4 ClassFile.magic ++ bytesOfNat 2 0 ++ major ++ poolSize ++
    b.entries.flatMap Entry.encode ++ bytesOfNat 2 publicClass ++ thisClass ++ superClass ++
    interfaces ++ fields ++ methods ++ bytesOfNat 2 0)

end ClassFileBuilder

/-! ### Instructions -/

namespace Instruction

/-- An operand in `width` bytes, as two's complement below zero. -/
def encodeOperand (width : Int) (n : Int) : Except OutOfRange Bytes :=
  if width < 0 then .error .outOfRange
  else if n < 0 then signedField width.toNat n
  else unsignedField width.toNat n

/-- The bytes of an instruction: its opcode and its operands, each in the width given, two bytes
where none is. -/
def encode (opcode : Int) (operands widths : List Int) : Except OutOfRange Bytes := do
  let first ← unsignedField 1 opcode
  let widths := if widths.isEmpty then operands.map fun _ => 2 else widths
  let rest ← (operands.zip widths).mapM fun (n, width) => encodeOperand width n
  pure (first ++ rest.flatten)

end Instruction

end Unjar
