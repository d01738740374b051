import Unjar.ClassFile.ConstantPool

/-!
Class files.

A class file is its constant pool, the names of the class, of its superclass and of its
interfaces, and the members with their attributes.  Of the attributes two are opened: the code of
a method and the exceptions that it declares.  All others are kept as they stand.

Main definitions:

* `Unjar.ClassFile`, `Unjar.ClassFile.parse` — a class file and its reader;
* `Unjar.Code`, `Unjar.Code.parse` — the code of a method;
* `Unjar.ClassFile.codeOf`, `Unjar.ClassFile.exceptionsOf` — the two attributes of a method.
-/

set_option autoImplicit false

namespace Unjar

/-- Attributes by name, in the order of the file. -/
abbrev Attributes := List (Name × Bytes)

/-- A field or a method. -/
structure Member where
  /-- The access flags. -/
  access : Nat
  name : Name
  /-- The type, in descriptor form. -/
  descriptor : Name
  attributes : Attributes
deriving DecidableEq, Repr

/-- A range of code with the place where an exception thrown in it is caught. -/
structure Handler where
  /-- The first offset covered. -/
  start : Nat
  /-- The first offset no longer covered. -/
  stop : Nat
  /-- Where the handler begins. -/
  handler : Nat
  /-- The index of the class that is caught; zero catches all. -/
  catchType : Nat
deriving DecidableEq, Repr

/-- The code of a method. -/
structure Code where
  /-- The depth of the operand stack. -/
  maxStack : Nat
  /-- The number of local variables. -/
  maxLocals : Nat
  /-- The instructions. -/
  bytes : Bytes
  /-- The handlers, in the order in which they are tried. -/
  handlers : List Handler
deriving DecidableEq, Repr

structure ClassFile where
  /-- The minor version of the format. -/
  minor : Nat
  /-- The major version of the format. -/
  major : Nat
  pool : ConstantPool
  /-- The access flags. -/
  access : Nat
  /-- The internal name of the class. -/
  thisClass : Name
  /-- The internal name of the superclass, if there is one. -/
  superClass : Option Name
  /-- The internal names of the interfaces. -/
  interfaces : List Name
  fields : List Member
  methods : List Member
  attributes : Attributes
deriving DecidableEq, Repr

namespace Attributes

/-- The body of the first attribute of a name. -/
def first? (attributes : Attributes) (name : Name) : Option Bytes := attributes.lookup name

/-- The bodies by name, each name where it first appears. -/
def grouped (attributes : Attributes) : List (Name × List Bytes) :=
  (attributes.map Prod.fst).eraseDups.map fun name =>
    (name, (attributes.filter fun entry => entry.1 == name).map Prod.snd)

/-- A table of attributes: its length, then the index of a name, a size and a body each. -/
def read (pool : ConstantPool) : Decoder Attributes := do
  Cursor.times (do
    let name ← pool.utf8 (← Cursor.u2)
    let size ← Cursor.u4
    let body ← Cursor.take size
    pure (name, body)) (← Cursor.u2)

end Attributes

namespace Member

/-- A table of fields or methods. -/
def readAll (pool : ConstantPool) : Decoder (List Member) := do
  Cursor.times (do
    let access ← Cursor.u2
    let name ← pool.utf8 (← Cursor.u2)
    let descriptor ← pool.utf8 (← Cursor.u2)
    let attributes ← Attributes.read pool
    pure ⟨access, name, descriptor, attributes⟩) (← Cursor.u2)

end Member

/-- A row of the handler table. -/
def Handler.read : Decoder Handler := do
  let start ← Cursor.u2
  let stop ← Cursor.u2
  let handler ← Cursor.u2
  let catchType ← Cursor.u2
  pure ⟨start, stop, handler, catchType⟩

/-- The body of a code attribute up to its handler table; what follows is not needed. -/
def Code.read : Decoder Code := do
  let maxStack ← Cursor.u2
  let maxLocals ← Cursor.u2
  let size ← Cursor.u4
  let bytes ← Cursor.take size
  let handlers ← Cursor.times Handler.read (← Cursor.u2)
  pure ⟨maxStack, maxLocals, bytes, handlers⟩

/-- The code in the body of a code attribute. -/
def Code.parse (body : Bytes) : Except Malformed Code := Code.read.run' (Cursor.start body)

namespace ClassFile

/-- The first four bytes of every class file. -/
def magic : Nat := 0xCAFEBABE

/-- The magic number; of fewer than ten bytes not even that is read. -/
def readMagic : Decoder Unit := do
  if (← get).remaining < 10 then throw .badMagic
  if (← Cursor.u4) ≠ magic then throw .badMagic

/-- What follows the magic number, up to the last attribute. -/
def readContents : Decoder ClassFile := do
  let minor ← Cursor.u2
  let major ← Cursor.u2
  let pool ← ConstantPool.read
  let access ← Cursor.u2
  let thisClass ← pool.className (← Cursor.u2)
  let superIndex ← Cursor.u2
  let superClass ← if superIndex = 0 then pure none else some <$> pool.className superIndex
  let interfaces ← Cursor.times (do pool.className (← Cursor.u2)) (← Cursor.u2)
  let fields ← Member.readAll pool
  let methods ← Member.readAll pool
  let attributes ← Attributes.read pool
  pure ⟨minor, major, pool, access, thisClass, superClass, interfaces, fields, methods, attributes⟩

/-- A class file from the first byte to the last attribute. -/
def read : Decoder ClassFile := do
  readMagic
  readContents

/-- **The class in a class file.**  Nothing may follow the last attribute. -/
def parse (bytes : Bytes) : Except Malformed ClassFile := do
  let (classFile, rest) ← read.run (Cursor.start bytes)
  if rest.ahead.isEmpty then pure classFile else throw (.trailingBytes rest.ahead.length)

def codeOf (method : Member) : Except Malformed (Option Code) :=
  match method.attributes.first? (Name.ofString "Code") with
  | none => pure none
  | some body => some <$> Code.parse body

/-- The internal names of the exceptions that a method declares. -/
def exceptionsOf (classFile : ClassFile) (method : Member) : Except Malformed (List Name) :=
  match method.attributes.first? (Name.ofString "Exceptions") with
  | none => pure []
  | some body =>
    let table : Decoder (List Name) := do
      Cursor.times (do classFile.pool.className (← Cursor.u2)) (← Cursor.u2)
    table.run' (Cursor.start body)

end ClassFile

end Unjar
