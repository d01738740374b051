import Unjar.ClassFile
import Unjar.Instruction
import Unjar.TypeDescriptor

/-!
The types that a class refers to.

Signatures alone miss the types that a class uses only inside its methods, so the code is walked
too: class operands, the owners and descriptors of the members that are used, class constants that
are loaded, and the exceptions that are caught.

Main definitions:

* `Unjar.TypeSet` — a finite set of type names, listed in order;
* `Unjar.ClassReferences`, `Unjar.ClassReferences.extract` — a class and the types that it
  mentions.
-/

set_option autoImplicit false

namespace Unjar

/-! ### Sets of type names -/

/-- A finite set of type names. -/
structure TypeSet where
  /-- The members, each once, ordered by their code points. -/
  toList : List Name
deriving DecidableEq, Repr

namespace TypeSet

/-- The set without members. -/
def empty : TypeSet := ⟨[]⟩

/-- A name put in its place in an ordered list. -/
def insertInto (n : Name) : List Name → List Name
  | [] => [n]
  | m :: r => if n < m then n :: m :: r else if n = m then m :: r else m :: insertInto n r

/-- A set with one more member. -/
def insert (s : TypeSet) (n : Name) : TypeSet := ⟨insertInto n s.toList⟩

/-- A set with the members of a list added. -/
def insertAll (s : TypeSet) (names : List Name) : TypeSet := names.foldl insert s

/-- The set of the members of a list. -/
def ofList (names : List Name) : TypeSet := empty.insertAll names

/-- The members of either set. -/
def union (s t : TypeSet) : TypeSet := s.insertAll t.toList

/-- Whether a name is a member. -/
def contains (s : TypeSet) (n : Name) : Bool := s.toList.contains n

/-- The number of members. -/
def size (s : TypeSet) : Nat := s.toList.length

end TypeSet

/-! ### The references of one class -/

/-- **A class and the types that it mentions**, all in dotted form. -/
structure ClassReferences where
  /-- The class itself. -/
  owner : Name
  /-- The types mentioned, the class among them. -/
  types : TypeSet
deriving DecidableEq, Repr

namespace ClassReferences

/-- The types that an operand refers to; an empty name is none. -/
def ofOperand (pool : ConstantPool) : Operand → Except Malformed (List Name)
  | .type index => do
    let name ← pool.className index
    pure (Descriptor.ofClass name).toList
  | .field index => do
    let ref ← pool.memberRef index
    pure ((Descriptor.ofClass ref.owner).toList ++ (Descriptor.ofField ref.descriptor).toList)
  | .method index => do
    let ref ← pool.memberRef index
    pure ((Descriptor.ofClass ref.owner).toList ++ Descriptor.ofMethod ref.descriptor)
  | .callSite index => do
    let descriptor ← pool.invokeDynamicDescriptor index
    pure (Descriptor.ofMethod descriptor)
  | .shortConstant index | .constant index =>
    if pool.tag? index = some 7 then do
      let name ← pool.className index
      pure (Descriptor.ofClass name).toList
    else pure []

/-- The types that a sequence of instructions refers to. -/
def ofInstructions (pool : ConstantPool) : List Instruction → Except Malformed (List Name)
  | [] => pure []
  | i :: more => do
    let here ← match i.operand? with
      | some operand => ofOperand pool operand
      | none => pure []
    let behind ← ofInstructions pool more
    pure (here ++ behind)

/-- The types that a handler table names; a row that catches everything names none. -/
def ofHandlers (pool : ConstantPool) : List Handler → Except Malformed (List Name)
  | [] => pure []
  | h :: more => do
    let here ← if h.catchType = 0 then pure [] else do
      let name ← pool.className h.catchType
      pure (Descriptor.ofClass name).toList
    let behind ← ofHandlers pool more
    pure (here ++ behind)

/-- The types that the code of a method refers to. -/
def ofCode (pool : ConstantPool) (code : Code) : Except Malformed (List Name) := do
  let (instructions, failure) := Instruction.walk code.bytes
  let used ← ofInstructions pool instructions
  match failure with
  | some cause => throw cause
  | none =>
    let caught ← ofHandlers pool code.handlers
    pure (used ++ caught)

/-- The types that a method mentions: in its signature, among its exceptions and in its code. -/
def ofMethod (classFile : ClassFile) (method : Member) : Except Malformed (List Name) := do
  let declared ← classFile.exceptionsOf method
  let code ← ClassFile.codeOf method
  let used ← match code with
    | some code => ofCode classFile.pool code
    | none => pure []
  pure (Descriptor.ofMethod method.descriptor ++ declared.map Name.dotted ++ used)

/-- The types that the methods of a class mention. -/
def ofMethods (classFile : ClassFile) : List Member → Except Malformed (List Name)
  | [] => pure []
  | method :: more => do
    let here ← ofMethod classFile method
    let behind ← ofMethods classFile more
    pure (here ++ behind)

/-- The types that a class mentions. -/
def ofClassFile (classFile : ClassFile) : Except Malformed ClassReferences := do
  let owner := classFile.thisClass.dotted
  let methods ← ofMethods classFile classFile.methods
  pure ⟨owner, TypeSet.ofList (owner ::
    classFile.superClass.toList.map Name.dotted ++
    classFile.interfaces.map Name.dotted ++
    classFile.fields.filterMap (fun field => Descriptor.ofField field.descriptor) ++
    methods)⟩

/-- **The types that the class in a class file mentions.** -/
def extract (bytes : Bytes) : Except Malformed ClassReferences := do
  let classFile ← ClassFile.parse bytes
  ofClassFile classFile

end ClassReferences

end Unjar
