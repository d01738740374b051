import Unjar.ClassFile.Builder

/-!
Building sessions.

A class file is built in a session: a builder is started with the names of the class, and is then
called any number of times, for constants, fields and methods in any order.  A call that fails
leaves the constants that it had placed, and the session goes on.

Main definitions:

* `Unjar.ConstantRequest`, `Unjar.FieldRequest`, `Unjar.BuilderCall` — what a builder is asked for;
* `Unjar.ConstantRequest.indexIn` — where a list of entries holds a constant;
* `Unjar.ConstantRequest.IsAt` — that a constant stands at an index of a pool;
* `Unjar.BuilderSession`, `Unjar.BuilderSession.run` — a session, its answers and its builder.
-/

set_option autoImplicit false

namespace Unjar

/-! ### Constants by their contents -/

/-- A constant that a builder is asked for. -/
inductive ConstantRequest where
  /-- A string. -/
  | utf8 (value : Text)
  | classRef (name : Text)
  /-- A string constant. -/
  | string (value : Text)
  | integer (n : Int)
  | long (n : Int)
  | nameAndType (name descriptor : Text)
  /-- A reference to a member. -/
  | memberRef (kind : MemberKind) (owner name descriptor : Text)
  /-- A dynamic call site. -/
  | invokeDynamic (name descriptor : Text) (bootstrap : Int)
deriving DecidableEq, Repr

namespace ConstantRequest

/-- The index that a builder answers. -/
def place : ConstantRequest → Building Nat
  | utf8 value => ClassFileBuilder.utf8 value
  | classRef name => ClassFileBuilder.classRef name
  | string value => ClassFileBuilder.string value
  | integer n => ClassFileBuilder.integer n
  | long n => ClassFileBuilder.long n
  | nameAndType name descriptor => ClassFileBuilder.nameAndType name descriptor
  | memberRef kind owner name descriptor =>
    ClassFileBuilder.memberRef kind owner name descriptor
  | invokeDynamic name descriptor bootstrap =>
    ClassFileBuilder.invokeDynamic name descriptor bootstrap

/-- The index of a string among entries. -/
def textIndex (entries : List Entry) (value : Text) : Option Nat :=
  (Entry.text value).indexIn 1 entries

/-- The index of a class among entries. -/
def classIndex (entries : List Entry) (name : Text) : Option Nat := do
  let i ← textIndex entries name
  (Entry.other (.classRef i)).indexIn 1 entries

/-- The index of a class among entries, or zero where none is named. -/
def classIndexOrZero (entries : List Entry) : Option Text → Option Nat
  | none | some [] => some 0
  | some name => classIndex entries name

/-- The index of a name with a descriptor among entries. -/
def nameAndTypeIndex (entries : List Entry) (name descriptor : Text) : Option Nat := do
  let i ← textIndex entries name
  let j ← textIndex entries descriptor
  (Entry.other (.nameAndType i j)).indexIn 1 entries

/-- **The index of a constant among entries**, if they hold it. -/
def indexIn (entries : List Entry) : ConstantRequest → Option Nat
  | utf8 value => textIndex entries value
  | classRef name => classIndex entries name
  | string value => do
    let i ← textIndex entries value
    (Entry.other (.string i)).indexIn 1 entries
  | integer n => do
    let raw ← (signedField 4 n).toOption
    (Entry.other (.integer raw)).indexIn 1 entries
  | long n => do
    let raw ← (signedField 8 n).toOption
    (Entry.other (.long raw)).indexIn 1 entries
  | nameAndType name descriptor => nameAndTypeIndex entries name descriptor
  | memberRef kind owner name descriptor => do
    let i ← classIndex entries owner
    let j ← nameAndTypeIndex entries name descriptor
    (Entry.other (.memberRef kind i j)).indexIn 1 entries
  | invokeDynamic name descriptor bootstrap => do
    let j ← nameAndTypeIndex entries name descriptor
    let _ ← (unsignedField 2 bootstrap).toOption
    (Entry.other (.invokeDynamic bootstrap.toNat j)).indexIn 1 entries

/-- **A constant stands at an index of a pool**: looking the index up, through the indices that the
constants hold themselves, gives the contents that were asked for. -/
def IsAt (pool : ConstantPool) (index : Nat) : ConstantRequest → Prop
  | utf8 value => pool.utf8 index = .ok (Text.codePoints value)
  | classRef name => pool.className index = .ok (Text.codePoints name)
  | string value =>
    ∃ i : Nat, pool.get? index = some (.string i) ∧ pool.utf8 i = .ok (Text.codePoints value)
  | integer n =>
    ∃ raw, pool.get? index = some (.integer raw) ∧ raw.length = 4 ∧ signed 4 (bigEndian raw) = n
  | long n =>
    ∃ raw, pool.get? index = some (.long raw) ∧ raw.length = 8 ∧ signed 8 (bigEndian raw) = n
  | nameAndType name descriptor =>
    pool.nameAndType index = .ok (Text.codePoints name, Text.codePoints descriptor)
  | memberRef kind owner name descriptor =>
    pool.tag? index = some kind.tag ∧
      pool.memberRef index =
        .ok ⟨Text.codePoints owner, Text.codePoints name, Text.codePoints descriptor⟩
  | invokeDynamic name descriptor bootstrap =>
    ∃ i j : Nat, pool.get? index = some (.invokeDynamic i j) ∧ (i : Int) = bootstrap ∧
      pool.nameAndType j = .ok (Text.codePoints name, Text.codePoints descriptor) ∧
      pool.invokeDynamicDescriptor index = .ok (Text.codePoints descriptor)

end ConstantRequest

/-! ### Calls and sessions -/

/-- A field that a builder is asked for. -/
structure FieldRequest where
  name : Text
  descriptor : Text
  /-- The access flags. -/
  access : Int
deriving DecidableEq, Repr

inductive BuilderCall where
  /-- Asks for a constant; the answer is its index. -/
  | constant (request : ConstantRequest)
  | field (request : FieldRequest)
  | method (request : MethodRequest)
deriving DecidableEq, Repr

/-- The answer to a call: an index where a constant was asked for, or that a number did not fit. -/
abbrev BuilderAnswer := Except OutOfRange (Option Nat)

namespace BuilderCall

/-- What a builder does when it is called. -/
def perform : BuilderCall → Building (Option Nat)
  | constant request => some <$> request.place
  | field f => do
    ClassFileBuilder.addField f.name f.descriptor f.access
    pure none
  | method m => do
    ClassFileBuilder.addMethod m
    pure none

/-- Calls made one after the other, each with its answer, and the builder after the last. -/
def performAll : List BuilderCall → ClassFileBuilder →
    List (BuilderCall × BuilderAnswer) × ClassFileBuilder
  | [], b => ([], b)
  | call :: more, b =>
    let (answer, b) := call.perform.run.run b
    let (answers, b) := performAll more b
    ((call, answer) :: answers, b)

/-- The field of a call for a field that was answered. -/
def field? : BuilderCall × BuilderAnswer → Option FieldRequest
  | (field f, .ok _) => some f
  | _ => none

/-- The method of a call for a method that was answered. -/
def method? : BuilderCall × BuilderAnswer → Option MethodRequest
  | (method m, .ok _) => some m
  | _ => none

end BuilderCall

/-- **A session with a builder.** -/
structure BuilderSession where
  /-- The name of the class. -/
  name : Text
  /-- The name of the superclass; none, or an empty one, stands for no superclass. -/
  superName : Option Text
  /-- The names of the interfaces. -/
  interfaces : List Text
  /-- The major version of the format. -/
  major : Int
  /-- The calls, in order. -/
  calls : List BuilderCall
deriving DecidableEq, Repr

namespace BuilderSession

/-- **The calls of a session with their answers**, and the builder after them. -/
def run (s : BuilderSession) :
    Except OutOfRange (List (BuilderCall × BuilderAnswer) × ClassFileBuilder) :=
  let started :=
    (ClassFileBuilder.header s.name s.superName s.interfaces).run.run (.blank s.major)
  started.1.map fun () => BuilderCall.performAll s.calls started.2

end BuilderSession

end Unjar
