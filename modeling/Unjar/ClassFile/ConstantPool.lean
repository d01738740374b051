import Unjar.ClassFile.Cursor
import Unjar.ClassFile.Name

/-!
The constant pool of a class file.

The pool is a table of constants that the rest of the class refers to by index.  Slot zero is never
used, and a `long` or a `double` leaves the slot after it unused.

Main definitions:

* `Unjar.Constant`, `Unjar.Constant.read`, `Unjar.Constant.encode` — constants and their bytes;
* `Unjar.ConstantPool`, `Unjar.ConstantPool.read` — the table;
* `Unjar.ConstantPool.className`, `Unjar.ConstantPool.nameAndType`,
  `Unjar.ConstantPool.memberRef`, `Unjar.ConstantPool.invokeDynamicDescriptor` — what an index
  stands for, through the indices that the constants themselves hold.
-/

set_option autoImplicit false

namespace Unjar

/-- The kinds of reference to a member of a class. -/
inductive MemberKind where
  | field
  | method
  | interfaceMethod
deriving DecidableEq, Repr

/-- A constant.  Numbers and method handles are kept as the bytes that follow their tag. -/
inductive Constant where
  | utf8 (name : Name)
  | integer (raw : Bytes)
  | float (raw : Bytes)
  | long (raw : Bytes)
  | double (raw : Bytes)
  | classRef (name : Nat)
  | string (value : Nat)
  | memberRef (kind : MemberKind) (owner nameAndType : Nat)
  | nameAndType (name descriptor : Nat)
  | methodHandle (raw : Bytes)
  | methodType (descriptor : Nat)
  | dynamic (bootstrap nameAndType : Nat)
  | invokeDynamic (bootstrap nameAndType : Nat)
  | module (name : Nat)
  | package (name : Nat)
deriving DecidableEq, Repr

namespace MemberKind

/-- The tag of a reference to a member. -/
def tag : MemberKind → Nat
  | field => 9
  | method => 10
  | interfaceMethod => 11

end MemberKind

namespace Constant

/-- The byte that announces a constant. -/
def tag : Constant → Nat
  | utf8 _ => 1
  | integer _ => 3
  | float _ => 4
  | long _ => 5
  | double _ => 6
  | classRef _ => 7
  | string _ => 8
  | memberRef kind _ _ => kind.tag
  | nameAndType _ _ => 12
  | methodHandle _ => 15
  | methodType _ => 16
  | dynamic _ _ => 17
  | invokeDynamic _ _ => 18
  | module _ => 19
  | package _ => 20

/-- Whether a constant takes two slots. -/
def isWide : Constant → Bool
  | long _ | double _ => true
  | _ => false

/-- The number of slots that a constant takes. -/
def slots (c : Constant) : Nat := if c.isWide then 2 else 1

/-! ### Reading -/

/-- Two indices, combined. -/
def readPair (make : Nat → Nat → Constant) : Decoder Constant := do
  let first ← Cursor.u2
  let second ← Cursor.u2
  pure (make first second)

/-- A string: its length in bytes and its bytes. -/
def readUtf8 : Decoder Constant := do
  let length ← Cursor.u2
  let raw ← Cursor.take length
  match Name.decode raw with
  | some name => pure (utf8 name)
  | none => throw .invalidName

/-- A constant; `index` is the slot that it will take. -/
def read (index : Nat) : Decoder Constant := do
  match ← Cursor.u1 with
  | 1 => readUtf8
  | 3 => integer <$> Cursor.take 4
  | 4 => float <$> Cursor.take 4
  | 5 => long <$> Cursor.take 8
  | 6 => double <$> Cursor.take 8
  | 7 => classRef <$> Cursor.u2
  | 8 => string <$> Cursor.u2
  | 9 => readPair (memberRef .field)
  | 10 => readPair (memberRef .method)
  | 11 => readPair (memberRef .interfaceMethod)
  | 12 => readPair nameAndType
  | 15 => methodHandle <$> Cursor.take 3
  | 16 => methodType <$> Cursor.u2
  | 17 => readPair dynamic
  | 18 => readPair invokeDynamic
  | 19 => module <$> Cursor.u2
  | 20 => package <$> Cursor.u2
  | tag => throw (.unknownTag tag index)

end Constant

/-- **A constant pool**: its slots from index zero on. -/
structure ConstantPool where
  /-- The constant that begins at each index, if any. -/
  slots : List (Option Constant)
deriving DecidableEq, Repr

/-- What a reference to a member names. -/
structure MemberRef where
  /-- The internal name of the owner, or an array descriptor. -/
  owner : Name
  name : Name
  descriptor : Name
deriving DecidableEq, Repr

namespace ConstantPool

/-- The given number of slots, the first of which has the given index. -/
def readSlots : Nat → Nat → Decoder (List (Option Constant))
  | 0, _ => pure []
  | 1, index => do
    let constant ← Constant.read index
    if constant.isWide then throw .wideOverrun else pure [some constant]
  | n + 2, index => do
    let constant ← Constant.read index
    if constant.isWide then
      let rest ← readSlots n (index + 2)
      pure (some constant :: none :: rest)
    else
      let rest ← readSlots (n + 1) (index + 1)
      pure (some constant :: rest)

/-- The number of slots and the slots from index one on. -/
def read : Decoder ConstantPool := do
  match ← Cursor.u2 with
  | 0 => throw .emptyPool
  | n + 1 => do
    let slots ← readSlots n 1
    pure ⟨none :: slots⟩

/-- The number of slots. -/
def size (pool : ConstantPool) : Nat := pool.slots.length

/-! ### Looking up -/

/-- The constant at an index.  Index zero, and an index outside the table, hold none. -/
def get? (pool : ConstantPool) (index : Int) : Option Constant :=
  if index < 0 then none else (pool.slots[index.toNat]?).join

/-- The tag at an index, if it holds a constant. -/
def tag? (pool : ConstantPool) (index : Int) : Option Nat :=
  if 0 < index then (pool.get? index).map Constant.tag else none

/-- The part of the constant at an index that `select` picks; `expected` lists the tags for which
it picks one. -/
def expect {α : Type} (pool : ConstantPool) (expected : List Nat)
    (select : Constant → Option α) (index : Int) : Except Malformed α :=
  if ¬ (0 < index ∧ index < pool.size) then .error (.indexOutOfRange index)
  else match (pool.get? index).bind select with
    | some found => .ok found
    | none => .error (.wrongTag index expected ((pool.get? index).map Constant.tag))

/-- The string at an index. -/
def utf8 (pool : ConstantPool) (index : Int) : Except Malformed Name :=
  pool.expect [1] (fun | .utf8 name => some name | _ => none) index

/-- The internal name of the class at an index. -/
def className (pool : ConstantPool) (index : Int) : Except Malformed Name := do
  let name ← pool.expect [7] (fun | .classRef name => some name | _ => none) index
  pool.utf8 name

/-- The name and the descriptor at an index. -/
def nameAndType (pool : ConstantPool) (index : Int) : Except Malformed (Name × Name) := do
  let (name, descriptor) ← pool.expect [12]
    (fun | .nameAndType name descriptor => some (name, descriptor) | _ => none) index
  let name ← pool.utf8 name
  let descriptor ← pool.utf8 descriptor
  pure (name, descriptor)

/-- The reference to a member at an index. -/
def memberRef (pool : ConstantPool) (index : Int) : Except Malformed MemberRef := do
  let (owner, nameAndType) ← pool.expect [9, 10, 11]
    (fun | .memberRef _ owner nameAndType => some (owner, nameAndType) | _ => none) index
  let (name, descriptor) ← pool.nameAndType nameAndType
  let owner ← pool.className owner
  pure ⟨owner, name, descriptor⟩

/-- The descriptor of the dynamic call site at an index. -/
def invokeDynamicDescriptor (pool : ConstantPool) (index : Int) : Except Malformed Name := do
  let nameAndType ← pool.expect [18]
    (fun | .invokeDynamic _ nameAndType => some nameAndType | _ => none) index
  let (_, descriptor) ← pool.nameAndType nameAndType
  pure descriptor

end ConstantPool

end Unjar
