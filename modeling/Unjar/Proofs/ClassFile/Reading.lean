import Mathlib.Algebra.GroupWithZero.Nat
import Unjar.Proofs.ClassFile.Name
import Unjar.Proofs.ClassFile.Pool
import Unjar.Proofs.ClassFile.PrefixFree

/-!
Reading what was built.

Every part that a builder writes is read as the part that it was: a constant in its slots, a member
with its attributes, and the file as a whole.

Main definitions:

* `Unjar.MemberLayout.ReadAs` — the member that a reader finds in a layout;
* `Unjar.ClassFileBuilder.ReadAs` — the class file that a reader finds.

Main results:

* `Unjar.ConstantPool.reads_slots` — the entries are read as the slots of the pool;
* `Unjar.Code.parse_encode`, `Unjar.parse_encodeExceptions` — the attributes that are opened;
* `Unjar.ClassFileBuilder.parse_build` — **a class file that was built is read.**
-/

set_option autoImplicit false

namespace Unjar

open Decoder

/-! ### Constants -/

namespace Constant

theorem tag_lt (c : Constant) : c.tag < 0x100 := by
  unfold tag MemberKind.tag
  split <;> (try split) <;> decide

theorem reads_pair (make : Nat → Nat → Constant) {i j : Nat} (hi : i < 0x10000)
    (hj : j < 0x10000) :
    Reads (readPair make) (bytesOfNat 2 i ++ bytesOfNat 2 j) (make i j) :=
  (Cursor.reads_u2 hi).bind ((Cursor.reads_u2 hj).bind_pure _)

theorem reads_utf8 {value : Text} (h : (Name.encodeUtf8 value).length < 0x10000) :
    Reads readUtf8 (bytesOfNat 2 (Name.encodeUtf8 value).length ++ Name.encodeUtf8 value)
      (utf8 (Text.codePoints value)) := by
  refine (Cursor.reads_u2 h).bind ((Cursor.reads_take _).bind_of_eq_pure ?_)
  simp only [Name.decode_encodeUtf8]

theorem reads_block (make : Bytes → Constant) {raw : Bytes} {size : Nat}
    (h : raw.length = size) : Reads (make <$> Cursor.take size) raw (make raw) := by
  subst h
  exact (Cursor.reads_take raw).map make

end Constant

/-- An entry is read as its constant. -/
theorem Entry.reads {e : Entry} {entries : List Entry} (h : e.FitsIn entries) (index : Nat) :
    Reads (Constant.read index) e.encode e.constant := by
  have htagged {c : Constant} {body : Bytes} {d : Nat → Decoder Constant}
      (hd : Reads (d c.tag) body c) : Reads (Cursor.u1 >>= d) (UInt8.ofNat c.tag :: body) c :=
    (Cursor.reads_u1 c.tag_lt).bind hd
  cases e with
  | text value => exact htagged (Constant.reads_utf8 h)
  | other c =>
      cases c with
      | utf8 name => exact False.elim h
      | integer raw => exact htagged (Constant.reads_block _ h)
      | float raw => exact htagged (Constant.reads_block _ h)
      | long raw => exact htagged (Constant.reads_block _ h)
      | double raw => exact htagged (Constant.reads_block _ h)
      | methodHandle raw => exact htagged (Constant.reads_block _ h)
      | classRef i => exact htagged ((Cursor.reads_u2 h.1).map _)
      | string i => exact htagged ((Cursor.reads_u2 h).map _)
      | methodType i => exact htagged ((Cursor.reads_u2 h).map _)
      | module i => exact htagged ((Cursor.reads_u2 h).map _)
      | package i => exact htagged ((Cursor.reads_u2 h).map _)
      | memberRef kind i j =>
          cases kind <;> exact htagged (Constant.reads_pair _ h.1 h.2)
      | nameAndType i j => exact htagged (Constant.reads_pair _ h.1 h.2)
      | dynamic i j => exact htagged (Constant.reads_pair _ h.1 h.2)
      | invokeDynamic i j => exact htagged (Constant.reads_pair _ h.1 h.2)

namespace ConstantPool

/-- The number of slots that entries fill. -/
def slotCount (entries : List Entry) : Nat := (entries.map Entry.slots).sum

theorem eq_nil_of_slotCount_eq_zero {entries : List Entry} (h : slotCount entries = 0) :
    entries = [] := by
  cases entries with
  | nil => rfl
  | cons e more =>
      have hpos := e.slots_pos
      rw [slotCount, List.map_cons, List.sum_cons] at h
      omega

/-- **The entries are read as the slots of the pool.** -/
theorem reads_slots {entries all : List Entry} (h : ∀ e ∈ entries, e.FitsIn all) (index : Nat) :
    Reads (readSlots (slotCount entries) index) (entries.flatMap Entry.encode)
      (entries.flatMap Entry.filled) := by
  induction entries generalizing index with
  | nil => exact .pure []
  | cons e more ih =>
      have he := Entry.reads (h e List.mem_cons_self) index
      have hmore := ih fun d hd => h d (List.mem_cons_of_mem e hd)
      rw [List.flatMap_cons, List.flatMap_cons, slotCount, List.map_cons, List.sum_cons]
      change Reads (readSlots (e.slots + slotCount more) index) _ _
      unfold Entry.filled Entry.slots Constant.slots
      cases hwide : e.constant.isWide with
      | true =>
          have hcount : 2 + slotCount more = slotCount more + 2 := Nat.add_comm _ _
          rw [if_pos rfl, if_pos rfl, hcount, readSlots]
          refine he.bind ?_
          rw [hwide]
          exact (hmore (index + 2)).bind_pure (some e.constant :: none :: ·)
      | false =>
          have hcount : 1 + slotCount more = slotCount more + 1 := Nat.add_comm _ _
          rw [if_neg (by decide), if_neg (by decide), hcount]
          have hrest := (hmore (index + 1)).bind_pure (some e.constant :: ·)
          -- the last slot has a case of its own
          cases hslots : slotCount more with
          | zero =>
              obtain rfl := eq_nil_of_slotCount_eq_zero hslots
              rw [readSlots]
              refine he.bind ?_
              rw [hwide]
              exact .pure [some e.constant]
          | succ n =>
              rw [hslots] at hrest
              rw [readSlots]
              refine he.bind ?_
              rw [hwide]
              exact hrest

theorem foldl_slots (entries : List Entry) (first : Nat) :
    entries.foldl (fun n e => n + e.slots) first = first + slotCount entries := by
  induction entries generalizing first with
  | nil => rfl
  | cons e more ih =>
      rw [List.foldl_cons, ih, slotCount, slotCount, List.map_cons, List.sum_cons, Nat.add_assoc]

/-- The pool is read with its size before it. -/
theorem reads_pool {b : ClassFileBuilder} (h : ∀ e ∈ b.entries, e.FitsIn b.entries)
    (hsize : b.nextIndex < 0x10000) :
    Reads read (bytesOfNat 2 b.nextIndex ++ b.entries.flatMap Entry.encode)
      (ofEntries b.entries) := by
  have hnext : b.nextIndex = slotCount b.entries + 1 := by
    rw [ClassFileBuilder.nextIndex, foldl_slots, Nat.add_comm]
  refine (Cursor.reads_u2 hsize).bind ?_
  rw [hnext]
  exact (reads_slots h 1).bind_pure fun slots => (⟨none :: slots⟩ : ConstantPool)

end ConstantPool

/-! ### Members -/

variable {pool : ConstantPool}

/-- The index of a class is read as its name. -/
theorem ConstantPool.reads_className {i : Nat} {name : Name} (hi : i < 0x10000)
    (hname : pool.className i = .ok name) :
    Reads (do pool.className (← Cursor.u2)) (bytesOfNat 2 i) name := by
  have := Reads.bind (f := fun i : Nat => liftM (pool.className i)) (Cursor.reads_u2 hi)
    (Reads.lift hname)
  rwa [List.append_nil] at this

/-- The name and the body of an attribute that was laid out. -/
structure AttributeReadAs (pool : ConstantPool) (named : Nat × Bytes) (attr : Name × Bytes) :
    Prop where
  name_eq : pool.utf8 named.1 = .ok attr.1
  body_eq : named.2 = attr.2

/-- **The member that a reader finds in a layout.** -/
structure MemberLayout.ReadAs (pool : ConstantPool) (layout : MemberLayout) (m : Member) :
    Prop where
  access_eq : layout.access = m.access
  name_eq : pool.utf8 layout.name = .ok m.name
  descriptor_eq : pool.utf8 layout.descriptor = .ok m.descriptor
  attributes_eq : List.Forall₂ (AttributeReadAs pool) layout.attributes m.attributes

/-- A table is read with its length before it. -/
theorem reads_table {α ρ : Type} {d : Decoder α} {encode : ρ → Bytes} {rows : List ρ}
    {values : List α} (hcount : rows.length < 0x10000)
    (h : List.Forall₂ (fun row a => Reads d (encode row) a) rows values) :
    Reads (do Cursor.times d (← Cursor.u2)) (bytesOfNat 2 rows.length ++ rows.flatMap encode)
      values :=
  (Cursor.reads_u2 hcount).bind (.times h)

/-- Attributes are read back. -/
theorem Attributes.reads {layouts : List (Nat × Bytes)} {attributes : Attributes}
    (hcount : layouts.length < 0x10000) (hfit : ∀ named ∈ layouts, AttributeFits named)
    (h : List.Forall₂ (AttributeReadAs pool) layouts attributes) :
    Reads (Attributes.read pool) (bytesOfNat 2 layouts.length ++
      layouts.flatMap fun (name, body) => bytesOfNat 2 name ++ bytesOfNat 4 body.length ++ body)
      attributes := by
  refine reads_table hcount (((List.forall₂_and_left _ _).2 ⟨hfit, h⟩).imp ?_)
  rintro ⟨index, body⟩ ⟨name, _⟩ ⟨⟨hindex, hsize⟩, hname, rfl⟩
  simp only [List.append_assoc]
  exact (Cursor.reads_u2 hindex).bind <| .lift_bind hname <| (Cursor.reads_u4 hsize).bind <|
    (Cursor.reads_take body).bind_pure fun body => (name, body)

/-- Members are read back. -/
theorem Member.reads_all {layouts : List MemberLayout} {members : List Member}
    (hcount : layouts.length < 0x10000) (hfit : ∀ layout ∈ layouts, layout.Fits)
    (h : List.Forall₂ (MemberLayout.ReadAs pool) layouts members) :
    Reads (Member.readAll pool) (bytesOfNat 2 layouts.length ++
      layouts.flatMap ClassFileBuilder.encodeMember) members := by
  refine reads_table hcount (((List.forall₂_and_left _ _).2 ⟨hfit, h⟩).imp ?_)
  rintro layout ⟨_, name, descriptor, attributes⟩ ⟨hfits, rfl, hname, hdescriptor, hattributes⟩
  simp only [ClassFileBuilder.encodeMember, List.append_assoc]
  exact (Cursor.reads_u2 hfits.access_lt).bind <| (Cursor.reads_u2 hfits.name_lt).bind <|
    .lift_bind hname <| (Cursor.reads_u2 hfits.descriptor_lt).bind <| .lift_bind hdescriptor <|
    (Attributes.reads hfits.attributes_length hfits.attributes_fit hattributes).bind_pure
      fun attributes => (⟨layout.access, name, descriptor, attributes⟩ : Member)

/-! ### The attributes that are opened -/

theorem Handler.reads {row : Handler} (h : row.Fits) : Reads Handler.read row.encode row :=
  (Cursor.reads_u2 h.1).bind <| (Cursor.reads_u2 h.2.1).bind <| (Cursor.reads_u2 h.2.2.1).bind <|
    (Cursor.reads_u2 h.2.2.2).bind_pure fun catchType =>
      (⟨row.start, row.stop, row.handler, catchType⟩ : Handler)

theorem run'_start {α : Type} {d : Decoder α} {bytes : Bytes} {a : α} (h : Reads d bytes a)
    (rest : Bytes) :
    d.run' (Cursor.start (bytes ++ rest)) = .ok a := by
  have hrun := h 0 rest
  rw [Nat.zero_add] at hrun
  change (d.run (Cursor.start (bytes ++ rest))).map Prod.fst = _
  rw [Cursor.start, hrun]
  rfl

/-- The code of a method is read back. -/
theorem Code.parse_encode {code : Code} (hstack : code.maxStack < 0x10000)
    (hlocals : code.maxLocals < 0x10000) (hsize : code.bytes.length < 0x100000000)
    (hcount : code.handlers.length < 0x10000) (hfit : ∀ row ∈ code.handlers, row.Fits) :
    Code.parse code.encode = .ok code := by
  have hhandlers : List.Forall₂ (fun row a => Reads Handler.read (Handler.encode row) a)
      code.handlers code.handlers :=
    List.forall₂_same.2 fun row hrow => Handler.reads (hfit row hrow)
  have hread : Reads Code.read _ code :=
    (Cursor.reads_u2 hstack).bind <| (Cursor.reads_u2 hlocals).bind <|
      (Cursor.reads_u4 hsize).bind <| (Cursor.reads_take code.bytes).bind <|
      (Cursor.reads_u2 hcount).bind <| (Reads.times hhandlers).bind_pure fun handlers =>
        (⟨code.maxStack, code.maxLocals, code.bytes, handlers⟩ : Code)
  have := run'_start hread (bytesOfNat 2 0)
  simp only [List.append_assoc] at this
  simp only [Code.parse, Code.encode, List.append_assoc]
  exact this

/-- The exceptions of a method are read back. -/
theorem run'_encodeExceptions {indices : List Nat} {names : List Name}
    (hcount : indices.length < 0x10000)
    (h : List.Forall₂ (fun (i : Nat) name => i < 0x10000 ∧ pool.className i = .ok name) indices
      names) :
    (do Cursor.times (do pool.className (← Cursor.u2)) (← Cursor.u2) :
      Decoder (List Name)).run' (Cursor.start (encodeExceptions indices)) = .ok names := by
  have hrows := h.imp fun (i : Nat) name (hi : i < 0x10000 ∧ pool.className i = .ok name) =>
    ConstantPool.reads_className hi.1 hi.2
  have := run'_start (reads_table hcount hrows) []
  rwa [List.append_nil] at this

/-! ### The whole file -/

/-- **The class file that a reader finds.** -/
structure ClassFileBuilder.ReadAs (b : ClassFileBuilder) (classFile : ClassFile) : Prop where
  minor_eq : classFile.minor = 0
  major_eq : b.major = classFile.major
  pool_eq : classFile.pool = .ofEntries b.entries
  access_eq : classFile.access = publicClass
  thisClass_eq : classFile.pool.className b.thisClass = .ok classFile.thisClass
  superClass_eq :
    (b.superClass = 0 ∧ classFile.superClass = none) ∨
      (b.superClass ≠ 0 ∧ ∃ name, classFile.pool.className b.superClass = .ok name ∧
        classFile.superClass = some name)
  interfaces_eq :
    List.Forall₂ (fun (i : Nat) name => i < 0x10000 ∧ classFile.pool.className i = .ok name)
      b.interfaces classFile.interfaces
  fields_eq : List.Forall₂ (MemberLayout.ReadAs classFile.pool) b.fields classFile.fields
  methods_eq : List.Forall₂ (MemberLayout.ReadAs classFile.pool) b.methods classFile.methods
  attributes_eq : classFile.attributes = []

/-- The parts of a builder fit their fields. -/
structure ClassFileBuilder.Fits (b : ClassFileBuilder) : Prop where
  entries_fit : ∀ e ∈ b.entries, e.FitsIn b.entries
  fields_fit : ∀ layout ∈ b.fields, layout.Fits
  methods_fit : ∀ layout ∈ b.methods, layout.Fits

/-- The tables of a builder are small enough for a class file. -/
structure ClassFileBuilder.Small (b : ClassFileBuilder) (major : Nat) : Prop where
  major_eq : b.major = major
  major_lt : major < 0x10000
  nextIndex_lt : b.nextIndex < 0x10000
  thisClass_lt : b.thisClass < 0x10000
  superClass_lt : b.superClass < 0x10000
  interfaces_lt : b.interfaces.length < 0x10000
  fields_lt : b.fields.length < 0x10000
  methods_lt : b.methods.length < 0x10000

/-- The bytes of a class file behind its magic number. -/
def ClassFileBuilder.contents (b : ClassFileBuilder) (major : Nat) : Bytes :=
  bytesOfNat 2 0 ++ (bytesOfNat 2 major ++
    ((bytesOfNat 2 b.nextIndex ++ b.entries.flatMap Entry.encode) ++
    (bytesOfNat 2 publicClass ++ (bytesOfNat 2 b.thisClass ++ (bytesOfNat 2 b.superClass ++
    (bytesOfNat 2 b.interfaces.length ++ (b.interfaces.flatMap (bytesOfNat 2) ++
    ((bytesOfNat 2 b.fields.length ++ b.fields.flatMap encodeMember) ++
    ((bytesOfNat 2 b.methods.length ++ b.methods.flatMap encodeMember) ++
    bytesOfNat 2 0)))))))))

namespace ClassFileBuilder

variable {b : ClassFileBuilder} {bytes : Bytes} {classFile : ClassFile}

/-- What it takes for a class file to be laid out. -/
theorem of_build_eq_ok (h : b.build = .ok bytes) :
    ∃ major, b.Small major ∧ bytes = bytesOfNat 4 ClassFile.magic ++ b.contents major := by
  have hshort {k : Nat} {raw : Bytes} (h : unsignedField 2 (k : Int) = .ok raw) :
      k < 0x10000 ∧ raw = bytesOfNat 2 k := by
    obtain ⟨k', hk, hlt, rfl⟩ := unsignedField_eq_ok.1 h
    obtain rfl : k = k' := Int.ofNat.inj hk
    exact ⟨hlt, rfl⟩
  have htable {α : Type} {encode : α → Bytes} {rows : List α} {raw : Bytes}
      (h : table encode rows = .ok raw) :
      rows.length < 0x10000 ∧ raw = bytesOfNat 2 rows.length ++ rows.flatMap encode := by
    obtain ⟨count, hcount, h⟩ := bind_eq_ok.1 h
    cases h
    obtain ⟨hlt, rfl⟩ := hshort hcount
    exact ⟨hlt, rfl⟩
  obtain ⟨_, hmajor, h⟩ := bind_eq_ok.1 h
  obtain ⟨_, hpool, h⟩ := bind_eq_ok.1 h
  obtain ⟨_, hthis, h⟩ := bind_eq_ok.1 h
  obtain ⟨_, hsuper, h⟩ := bind_eq_ok.1 h
  obtain ⟨_, hinterfaces, h⟩ := bind_eq_ok.1 h
  obtain ⟨_, hfields, h⟩ := bind_eq_ok.1 h
  obtain ⟨_, hmethods, h⟩ := bind_eq_ok.1 h
  cases h
  obtain ⟨major, hmajor_eq, hmajor_lt, rfl⟩ := unsignedField_eq_ok.1 hmajor
  obtain ⟨hpool_lt, rfl⟩ := hshort hpool
  obtain ⟨hthis_lt, rfl⟩ := hshort hthis
  obtain ⟨hsuper_lt, rfl⟩ := hshort hsuper
  obtain ⟨hinterfaces_lt, rfl⟩ := htable hinterfaces
  obtain ⟨hfields_lt, rfl⟩ := htable hfields
  obtain ⟨hmethods_lt, rfl⟩ := htable hmethods
  refine ⟨major, ⟨hmajor_eq, hmajor_lt, hpool_lt, hthis_lt, hsuper_lt, hinterfaces_lt,
    hfields_lt, hmethods_lt⟩, ?_⟩
  simp only [contents, List.append_assoc]

/-- The magic number is passed where a class file can follow it. -/
theorem run_readMagic {rest : Bytes} (h : 6 ≤ rest.length) :
    ClassFile.readMagic.run (Cursor.start (bytesOfNat 4 ClassFile.magic ++ rest)) =
      .ok ((), ⟨4, rest, 0⟩) := by
  have hlong : ¬(Cursor.start (bytesOfNat 4 ClassFile.magic ++ rest)).remaining < 10 := by
    simp only [Cursor.remaining, Cursor.start, List.length_append, bytesOfNat_length]
    omega
  unfold ClassFile.readMagic
  simp only [StateT.run_bind, StateT.run_get, pure_bind]
  rw [if_neg hlong]
  have hmagic : Reads (do if (← Cursor.u4) ≠ ClassFile.magic then throw .badMagic)
      (bytesOfNat 4 ClassFile.magic ++ []) () :=
    (Cursor.reads_u4 (by decide)).bind (.pure ())
  have := hmagic 0 rest
  rw [List.append_nil, Nat.zero_add, bytesOfNat_length] at this
  exact this

/-- What follows the magic number is read back. -/
theorem reads_contents (hfits : b.Fits) (hsmall : b.Small classFile.major)
    (hread : b.ReadAs classFile) :
    Reads ClassFile.readContents (b.contents classFile.major) classFile := by
  obtain ⟨minor, major, pool, access, thisClass, superClass, interfaces, fields, methods,
    attributes⟩ := classFile
  obtain ⟨rfl, -, rfl, rfl, hthis, hsuper, hinterfaces, hfields, hmethods, rfl⟩ := hread
  have hinterfaces := hinterfaces.imp fun (i : Nat) name hi =>
    ConstantPool.reads_className hi.1 hi.2
  have hnone : List.Forall₂ (AttributeReadAs (.ofEntries b.entries)) [] [] := .nil
  have hattributes : Reads (Attributes.read (.ofEntries b.entries)) (bytesOfNat 2 0) [] := by
    have hread := Attributes.reads (by decide) (by simp) hnone
    exact hread
  refine (Cursor.reads_u2 (by decide)).bind <| (Cursor.reads_u2 hsmall.major_lt).bind <|
    (ConstantPool.reads_pool hfits.entries_fit hsmall.nextIndex_lt).bind <|
    (Cursor.reads_u2 (by decide)).bind <| (Cursor.reads_u2 hsmall.thisClass_lt).bind <|
    .lift_bind hthis <| (Cursor.reads_u2 hsmall.superClass_lt).bind ?_
  have hrest : Reads (do
      let interfaces ← Cursor.times (do (ConstantPool.ofEntries b.entries).className (← Cursor.u2))
        (← Cursor.u2)
      let fields ← Member.readAll (.ofEntries b.entries)
      let methods ← Member.readAll (.ofEntries b.entries)
      let attributes ← Attributes.read (.ofEntries b.entries)
      pure (⟨0, major, .ofEntries b.entries, publicClass, thisClass, superClass, interfaces, fields,
        methods, attributes⟩ : ClassFile)) _
      ⟨0, major, .ofEntries b.entries, publicClass, thisClass, superClass, interfaces, fields,
        methods, []⟩ :=
    (Cursor.reads_u2 hsmall.interfaces_lt).bind <| (Reads.times hinterfaces).bind <|
      (Member.reads_all hsmall.fields_lt hfits.fields_fit hfields).bind <|
      (Member.reads_all hsmall.methods_lt hfits.methods_fit hmethods).bind <|
      hattributes.bind_pure _
  rcases hsuper with ⟨hzero, rfl⟩ | ⟨hzero, name, hname, rfl⟩
  · rw [if_pos hzero]
    exact hrest
  · rw [if_neg hzero]
    exact ((Reads.lift hname).map some).bind hrest

/-- **A class file that was built is read.** -/
theorem parse_build (hfits : b.Fits) (h : b.build = .ok bytes) (hread : b.ReadAs classFile) :
    ClassFile.parse bytes = .ok classFile := by
  obtain ⟨major, hsmall, rfl⟩ := of_build_eq_ok h
  obtain rfl := Int.ofNat.inj (hsmall.major_eq.symm.trans hread.major_eq)
  have hlong : 6 ≤ (b.contents classFile.major).length := by
    simp only [contents, List.length_append, bytesOfNat_length]
    omega
  have hcontents := reads_contents hfits hsmall hread 4 []
  rw [List.append_nil] at hcontents
  exact ClassFile.parse_eq_ok.2
    ⟨_, run_bind_eq_ok.2 ⟨(), _, run_readMagic hlong, hcontents⟩, rfl⟩

end ClassFileBuilder

end Unjar
