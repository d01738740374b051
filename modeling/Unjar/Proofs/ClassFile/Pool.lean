import Unjar.Proofs.ClassFile.Layout

/-!
The pool that a reader finds.

The entries of a builder become the slots of a constant pool.  An index under which the builder
placed a constant finds that constant there, through the indices that the constants hold
themselves; and no index finds two constants.

Main definitions:

* `Unjar.ConstantPool.ofEntries` — the pool that a reader finds.

Main results:

* `Unjar.signed_bigEndian` — signed numbers are read back from their bytes;
* `Unjar.ConstantRequest.isAt_of_indexIn` — **an index finds its constant**;
* `Unjar.ConstantRequest.IsAt.unique` — **an index of a pool finds one constant.**
-/

set_option autoImplicit false

namespace Unjar

open ConstantRequest

/-! ### The pool -/

/-- The slots that an entry fills: its constant and, behind a wide one, an unused slot. -/
def Entry.filled (e : Entry) : List (Option Constant) :=
  if e.constant.isWide then [some e.constant, none] else [some e.constant]

theorem Entry.filled_length (e : Entry) : e.filled.length = e.slots := by
  unfold Entry.filled Entry.slots Constant.slots
  split <;> rfl

theorem Entry.filled_head (e : Entry) : e.filled[0]? = some (some e.constant) := by
  unfold Entry.filled
  split <;> rfl

namespace ConstantPool

/-- **The pool that a reader finds.** -/
def ofEntries (entries : List Entry) : ConstantPool := ⟨none :: entries.flatMap Entry.filled⟩

theorem filled_getElem? {e : Entry} {first i : Nat} {entries : List Entry}
    (h : e.indexIn first entries = some i) :
    (entries.flatMap Entry.filled)[i - first]? = some (some e.constant) := by
  induction entries generalizing first with
  | nil => cases h
  | cons d more ih =>
      rw [List.flatMap_cons]
      unfold Entry.indexIn at h
      split at h
      · next hd =>
        obtain rfl : first = i := Option.some.inj h
        have hpos := d.slots_pos
        rw [hd, Nat.sub_self, List.getElem?_append_left (by rw [e.filled_length, ← hd]; exact hpos)]
        exact e.filled_head
      · have hle := Entry.le_of_indexIn h
        rw [List.getElem?_append_right (by rw [d.filled_length]; omega), d.filled_length,
          Nat.sub_sub]
        exact ih h

/-- An entry is found at its index. -/
theorem ofEntries_get? {e : Entry} {i : Nat} {entries : List Entry}
    (h : e.indexIn 1 entries = some i) : (ofEntries entries).get? i = some e.constant := by
  have hpos := Entry.le_of_indexIn h
  have hfound := filled_getElem? h
  obtain ⟨k, rfl⟩ : ∃ k, i = k + 1 := ⟨i - 1, by omega⟩
  rw [Nat.add_sub_cancel] at hfound
  have hnat : ((k + 1 : Nat) : Int).toNat = k + 1 := rfl
  rw [get?, if_neg (by omega), hnat, ofEntries, List.getElem?_cons_succ, hfound]
  rfl

/-- What is selected from an entry is found at its index. -/
theorem expect_eq_ok {α : Type} {e : Entry} {i : Nat} {entries : List Entry}
    {select : Constant → Option α} {a : α} (expected : List Nat)
    (h : e.indexIn 1 entries = some i) (hselect : select e.constant = some a) :
    (ofEntries entries).expect expected select i = .ok a := by
  have hpos := Entry.le_of_indexIn h
  have hget := ofEntries_get? h
  have hlt : i < (ofEntries entries).size := by
    by_contra hle
    rw [get?, if_neg (by omega), Int.toNat_natCast,
      List.getElem?_eq_none (by simpa [size] using hle)] at hget
    cases hget
  unfold expect
  rw [if_neg (by omega), hget, Option.bind_some, hselect]

theorem utf8_eq_ok {entries : List Entry} {value : Text} {i : Nat}
    (h : textIndex entries value = some i) :
    (ofEntries entries).utf8 i = .ok (Text.codePoints value) :=
  expect_eq_ok [1] h rfl

theorem className_eq_ok {entries : List Entry} {name : Text} {i : Nat}
    (h : classIndex entries name = some i) :
    (ofEntries entries).className i = .ok (Text.codePoints name) := by
  obtain ⟨j, hj, hi⟩ := Option.bind_eq_some_iff.1 h
  unfold className
  rw [expect_eq_ok (a := j) [7] hi rfl]
  exact utf8_eq_ok hj

theorem nameAndType_eq_ok {entries : List Entry} {name descriptor : Text} {i : Nat}
    (h : nameAndTypeIndex entries name descriptor = some i) :
    (ofEntries entries).nameAndType i =
      .ok (Text.codePoints name, Text.codePoints descriptor) := by
  obtain ⟨j, hj, h⟩ := Option.bind_eq_some_iff.1 h
  obtain ⟨k, hk, hi⟩ := Option.bind_eq_some_iff.1 h
  unfold nameAndType
  rw [expect_eq_ok (a := (j, k)) [12] hi rfl]
  change (do
    let name ← (ofEntries entries).utf8 j
    let descriptor ← (ofEntries entries).utf8 k
    pure (name, descriptor) : Except Malformed (Name × Name)) = _
  rw [utf8_eq_ok hj, utf8_eq_ok hk]
  rfl

theorem memberRef_eq_ok {entries : List Entry} {kind : MemberKind} {owner name descriptor : Text}
    {i j k : Nat} (hj : classIndex entries owner = some j)
    (hk : nameAndTypeIndex entries name descriptor = some k)
    (hi : (Entry.other (.memberRef kind j k)).indexIn 1 entries = some i) :
    (ofEntries entries).memberRef i =
      .ok ⟨Text.codePoints owner, Text.codePoints name, Text.codePoints descriptor⟩ := by
  unfold memberRef
  rw [expect_eq_ok (a := (j, k)) [9, 10, 11] hi rfl]
  change (do
    let both ← (ofEntries entries).nameAndType k
    let owner ← (ofEntries entries).className j
    pure ⟨owner, both.1, both.2⟩ : Except Malformed MemberRef) = _
  rw [nameAndType_eq_ok hk, className_eq_ok hj]
  rfl

theorem invokeDynamicDescriptor_eq_ok {entries : List Entry} {name descriptor : Text}
    {bootstrap i j : Nat} (hj : nameAndTypeIndex entries name descriptor = some j)
    (hi : (Entry.other (.invokeDynamic bootstrap j)).indexIn 1 entries = some i) :
    (ofEntries entries).invokeDynamicDescriptor i = .ok (Text.codePoints descriptor) := by
  unfold invokeDynamicDescriptor
  rw [expect_eq_ok (a := j) [18] hi rfl]
  change (do
    let both ← (ofEntries entries).nameAndType j
    pure both.2 : Except Malformed Name) = _
  rw [nameAndType_eq_ok hj]
  rfl

/-- The tag at the index of an entry. -/
theorem tag?_eq_some {e : Entry} {i : Nat} {entries : List Entry}
    (h : e.indexIn 1 entries = some i) : (ofEntries entries).tag? i = some e.constant.tag := by
  have hpos := Entry.le_of_indexIn h
  rw [tag?, if_pos (by omega), ofEntries_get? h]
  rfl

/-! ### From the pool back to the entries -/

theorem exists_of_filled_getElem? {entries : List Entry} {c : Constant} {k : Nat} (first : Nat)
    (hnodup : entries.Nodup) (h : (entries.flatMap Entry.filled)[k]? = some (some c)) :
    ∃ e : Entry, e.constant = c ∧ e.indexIn first entries = some (first + k) := by
  induction entries generalizing first k with
  | nil => cases h
  | cons d more ih =>
      rw [List.flatMap_cons] at h
      obtain ⟨hd, hmore⟩ := List.nodup_cons.1 hnodup
      by_cases hk : k < d.filled.length
      · rw [List.getElem?_append_left hk] at h
        refine ⟨d, ?_⟩
        -- only the first slot of an entry holds a constant
        cases k with
        | zero =>
            rw [d.filled_head] at h
            exact ⟨Option.some.inj (Option.some.inj h), by simp [Entry.indexIn]⟩
        | succ k =>
            unfold Entry.filled at h
            split at h
            · cases k <;> cases h
            · cases h
      · rw [List.getElem?_append_right (by omega)] at h
        obtain ⟨e, he, hindex⟩ := ih (first + d.slots) hmore h
        have hne : ¬d = e := by
          rintro rfl
          exact hd (Entry.mem_of_indexIn hindex)
        refine ⟨e, he, ?_⟩
        rw [Entry.indexIn, if_neg hne, hindex]
        rw [d.filled_length] at hk ⊢
        congr 1
        omega

/-- A constant of the pool is that of an entry, at its index. -/
theorem exists_of_ofEntries_get? {entries : List Entry} {c : Constant} {i : Nat}
    (hnodup : entries.Nodup) (h : (ofEntries entries).get? i = some c) :
    ∃ e : Entry, e.constant = c ∧ e.indexIn 1 entries = some i := by
  have hslot := Option.join_eq_some_iff.1 h
  cases i with
  | zero => cases hslot
  | succ k =>
      obtain ⟨e, he, hindex⟩ := exists_of_filled_getElem? 1 hnodup hslot
      exact ⟨e, he, by rw [hindex, Nat.add_comm]⟩

/-- Where the pool holds a class, the entries hold it with its name. -/
theorem exists_classIndex_of_tag? {entries : List Entry} {i : Nat}
    (hentries : Entry.Consistent entries) (h : (ofEntries entries).tag? i = some 7) :
    ∃ name, classIndex entries name = some i := by
  unfold tag? at h
  split at h
  · obtain ⟨c, hget, htag⟩ := Option.map_eq_some_iff.1 h
    obtain ⟨e, rfl, hindex⟩ := exists_of_ofEntries_get? hentries.nodup hget
    have hfit := hentries.fits e (Entry.mem_of_indexIn hindex)
    cases e with
    | text value => cases htag
    | other c =>
        cases c with
        | classRef j =>
            obtain ⟨-, name, hname⟩ := hfit
            refine ⟨name, ?_⟩
            rw [classIndex, hname]
            exact hindex
        | memberRef kind j k => cases kind <;> cases htag
        | _ => cases htag
  · cases h

theorem tag?_of_classIndex {entries : List Entry} {name : Text} {i : Nat}
    (h : classIndex entries name = some i) : (ofEntries entries).tag? i = some 7 := by
  obtain ⟨j, -, hi⟩ := Option.bind_eq_some_iff.1 h
  exact tag?_eq_some hi

end ConstantPool

/-! ### Numbers below zero -/

/-- A signed number is read back from its two's complement. -/
theorem signed_bigEndian {size : Nat} {n : Int} {bytes : Bytes} (hsize : 0 < size)
    (h : signedField size n = .ok bytes) : signed size (bigEndian bytes) = n := by
  simp only [signedField] at h
  split at h
  · next hrange =>
    obtain rfl := Except.ok.inj h
    have hdouble : valuesOfBits (8 * size) = 2 * valuesOfBits (8 * size - 1) := by
      obtain ⟨k, hk⟩ : ∃ k, 8 * size = k + 1 := ⟨8 * size - 1, by omega⟩
      rw [hk, Nat.add_sub_cancel]
      simp [valuesOfBits, Nat.pow_succ, Nat.mul_comm]
    have hlt : (n % valuesOfBits (8 * size)).toNat < valuesOfBits (8 * size) := by
      have := Int.emod_lt_of_pos n (b := valuesOfBits (8 * size)) (by omega)
      omega
    rw [bytesOfInt, bigEndian_bytesOfNat hlt, signed]
    generalize valuesOfBits (8 * size - 1) = half at hrange hdouble
    rw [hdouble] at hlt ⊢
    -- a number below zero is moved up by a whole turn
    rcases Int.lt_or_le n 0 with hn | hn
    · have hmod : n % (2 * half : Nat) = n + (2 * half : Nat) := by
        rw [← Int.add_emod_right, Int.emod_eq_of_lt] <;> omega
      rw [hmod, if_neg] <;> omega
    · have hmod : n % (2 * half : Nat) = n := Int.emod_eq_of_lt hn (by omega)
      rw [hmod, if_pos] <;> omega
  · cases h

/-! ### Constants -/

theorem MemberKind.tag_injective {kind kind' : MemberKind} (h : kind.tag = kind'.tag) :
    kind = kind' := by
  cases kind <;> cases kind' <;> first | rfl | cases h

theorem Text.codePoints_injective {t t' : Text} (h : Text.codePoints t = Text.codePoints t') :
    t = t' :=
  List.map_injective_iff.2 (fun _ _ => Char.toNat_inj.1) h

namespace ConstantPool

variable {pool : ConstantPool} {i : Int}

theorem of_expect_eq_ok {α : Type} {expected : List Nat} {select : Constant → Option α} {a : α}
    (h : pool.expect expected select i = .ok a) :
    0 < i ∧ ∃ c, pool.get? i = some c ∧ select c = some a := by
  unfold expect at h
  split at h
  · cases h
  · next hrange =>
    cases hget : (pool.get? i).bind select with
    | none =>
        rw [hget] at h
        cases h
    | some found =>
        rw [hget] at h
        cases h
        exact ⟨(not_not.1 hrange).1, Option.bind_eq_some_iff.1 hget⟩

theorem of_utf8_eq_ok {name : Name} (h : pool.utf8 i = .ok name) :
    pool.get? i = some (.utf8 name) := by
  obtain ⟨-, c, hget, hselect⟩ := of_expect_eq_ok h
  split at hselect
  · cases hselect
    exact hget
  · cases hselect

theorem of_className_eq_ok {name : Name} (h : pool.className i = .ok name) :
    ∃ j : Nat, pool.get? i = some (.classRef j) ∧ pool.utf8 j = .ok name := by
  obtain ⟨j, hj, hname⟩ := bind_eq_ok.1 h
  obtain ⟨-, c, hget, hselect⟩ := of_expect_eq_ok hj
  split at hselect
  · cases hselect
    exact ⟨j, hget, hname⟩
  · cases hselect

theorem of_nameAndType_eq_ok {name descriptor : Name}
    (h : pool.nameAndType i = .ok (name, descriptor)) :
    ∃ j k : Nat, pool.get? i = some (.nameAndType j k) ∧ pool.utf8 j = .ok name ∧
      pool.utf8 k = .ok descriptor := by
  obtain ⟨⟨j, k⟩, hjk, h⟩ := bind_eq_ok.1 h
  obtain ⟨name', hj, h⟩ := bind_eq_ok.1 h
  obtain ⟨descriptor', hk, h⟩ := bind_eq_ok.1 h
  cases h
  obtain ⟨-, c, hget, hselect⟩ := of_expect_eq_ok hjk
  split at hselect
  · cases hselect
    exact ⟨j, k, hget, hj, hk⟩
  · cases hselect

theorem of_memberRef_eq_ok {owner name descriptor : Name}
    (h : pool.memberRef i = .ok ⟨owner, name, descriptor⟩) :
    ∃ (kind : MemberKind) (j k : Nat), pool.get? i = some (.memberRef kind j k) ∧
      pool.className j = .ok owner ∧ pool.nameAndType k = .ok (name, descriptor) := by
  obtain ⟨⟨j, k⟩, hjk, h⟩ := bind_eq_ok.1 h
  obtain ⟨⟨name', descriptor'⟩, hk, h⟩ := bind_eq_ok.1 h
  obtain ⟨owner', hj, h⟩ := bind_eq_ok.1 h
  cases h
  obtain ⟨-, c, hget, hselect⟩ := of_expect_eq_ok hjk
  split at hselect
  · next kind _ _ =>
    cases hselect
    exact ⟨kind, j, k, hget, hj, hk⟩
  · cases hselect

end ConstantPool

namespace ConstantRequest

/-- **An index finds its constant.** -/
theorem isAt_of_indexIn {entries : List Entry} {r : ConstantRequest} {i : Nat}
    (h : r.indexIn entries = some i) : r.IsAt (ConstantPool.ofEntries entries) i := by
  cases r with
  | utf8 value => exact ConstantPool.utf8_eq_ok h
  | classRef name => exact ConstantPool.className_eq_ok h
  | string value =>
      obtain ⟨j, hj, hi⟩ := Option.bind_eq_some_iff.1 h
      exact ⟨j, ConstantPool.ofEntries_get? hi, ConstantPool.utf8_eq_ok hj⟩
  | integer n =>
      obtain ⟨raw, hraw, hi⟩ := Option.bind_eq_some_iff.1 h
      have hraw := eq_ok_of_toOption hraw
      exact ⟨raw, ConstantPool.ofEntries_get? hi, signedField_length hraw,
        signed_bigEndian (by decide) hraw⟩
  | long n =>
      obtain ⟨raw, hraw, hi⟩ := Option.bind_eq_some_iff.1 h
      have hraw := eq_ok_of_toOption hraw
      exact ⟨raw, ConstantPool.ofEntries_get? hi, signedField_length hraw,
        signed_bigEndian (by decide) hraw⟩
  | nameAndType name descriptor => exact ConstantPool.nameAndType_eq_ok h
  | memberRef kind owner name descriptor =>
      obtain ⟨j, hj, h⟩ := Option.bind_eq_some_iff.1 h
      obtain ⟨k, hk, hi⟩ := Option.bind_eq_some_iff.1 h
      exact ⟨ConstantPool.tag?_eq_some hi, ConstantPool.memberRef_eq_ok hj hk hi⟩
  | invokeDynamic name descriptor bootstrap =>
      obtain ⟨j, hj, h⟩ := Option.bind_eq_some_iff.1 h
      obtain ⟨raw, hraw, hi⟩ := Option.bind_eq_some_iff.1 h
      have hnumber := unsignedField_eq_ok.1 (eq_ok_of_toOption hraw)
      obtain ⟨k, rfl, -, -⟩ := hnumber
      exact ⟨k, j, ConstantPool.ofEntries_get? hi, rfl, ConstantPool.nameAndType_eq_ok hj,
        ConstantPool.invokeDynamicDescriptor_eq_ok hj hi⟩

/-- A constant is the one that was asked for, through the indices that it holds. -/
def Describes (pool : ConstantPool) : ConstantRequest → Constant → Prop
  | utf8 value, .utf8 name => name = Text.codePoints value
  | classRef name, .classRef i => pool.utf8 i = .ok (Text.codePoints name)
  | string value, .string i => pool.utf8 i = .ok (Text.codePoints value)
  | integer n, .integer raw => signed 4 (bigEndian raw) = n
  | long n, .long raw => signed 8 (bigEndian raw) = n
  | nameAndType name descriptor, .nameAndType i j =>
    pool.utf8 i = .ok (Text.codePoints name) ∧ pool.utf8 j = .ok (Text.codePoints descriptor)
  | memberRef kind owner name descriptor, .memberRef kind' i j =>
    kind = kind' ∧ pool.className i = .ok (Text.codePoints owner) ∧
      pool.nameAndType j = .ok (Text.codePoints name, Text.codePoints descriptor)
  | invokeDynamic name descriptor bootstrap, .invokeDynamic i j =>
    bootstrap = i ∧ pool.nameAndType j = .ok (Text.codePoints name, Text.codePoints descriptor)
  | _, _ => False

variable {pool : ConstantPool} {i : Nat} {r r' : ConstantRequest}

theorem IsAt.describes (h : r.IsAt pool i) : ∃ c, pool.get? i = some c ∧ r.Describes pool c := by
  cases r with
  | utf8 value => exact ⟨_, ConstantPool.of_utf8_eq_ok h, rfl⟩
  | classRef name =>
      obtain ⟨j, hget, hj⟩ := ConstantPool.of_className_eq_ok h
      exact ⟨_, hget, hj⟩
  | string value =>
      obtain ⟨j, hget, hj⟩ := h
      exact ⟨_, hget, hj⟩
  | integer n =>
      obtain ⟨raw, hget, -, hraw⟩ := h
      exact ⟨_, hget, hraw⟩
  | long n =>
      obtain ⟨raw, hget, -, hraw⟩ := h
      exact ⟨_, hget, hraw⟩
  | nameAndType name descriptor =>
      obtain ⟨j, k, hget, hj, hk⟩ := ConstantPool.of_nameAndType_eq_ok h
      exact ⟨_, hget, hj, hk⟩
  | memberRef kind owner name descriptor =>
      obtain ⟨htag, h⟩ := h
      obtain ⟨kind', j, k, hget, hj, hk⟩ := ConstantPool.of_memberRef_eq_ok h
      refine ⟨_, hget, ?_, hj, hk⟩
      unfold ConstantPool.tag? at htag
      split at htag
      · rw [hget] at htag
        exact (MemberKind.tag_injective (Option.some.inj htag)).symm
      · cases htag
  | invokeDynamic name descriptor bootstrap =>
      obtain ⟨j, k, hget, hj, hk, -⟩ := h
      exact ⟨_, hget, hj.symm, hk⟩

theorem Describes.unique {c : Constant} (h : r.Describes pool c) (h' : r'.Describes pool c) :
    r = r' := by
  have htext {index : Nat} {t t' : Text} (ht : pool.utf8 index = .ok (Text.codePoints t))
      (ht' : pool.utf8 index = .ok (Text.codePoints t')) : t = t' :=
    Text.codePoints_injective (Except.ok.inj (ht.symm.trans ht'))
  have hpair {index : Nat} {t t' d d' : Text}
      (ht : pool.nameAndType index = .ok (Text.codePoints t, Text.codePoints d))
      (ht' : pool.nameAndType index = .ok (Text.codePoints t', Text.codePoints d')) :
      t = t' ∧ d = d' := by
    have hboth := Prod.mk.inj (Except.ok.inj (ht.symm.trans ht'))
    exact ⟨Text.codePoints_injective hboth.1, Text.codePoints_injective hboth.2⟩
  have hclass {index : Nat} {t t' : Text} (ht : pool.className index = .ok (Text.codePoints t))
      (ht' : pool.className index = .ok (Text.codePoints t')) : t = t' :=
    Text.codePoints_injective (Except.ok.inj (ht.symm.trans ht'))
  -- a constant of another kind than that of the request describes nothing
  cases c <;> cases r <;> (try exact False.elim h) <;> cases r' <;> try exact False.elim h'
  case utf8.utf8.utf8 =>
      rw [Text.codePoints_injective (h.symm.trans h')]
  case integer.integer.integer =>
      rw [← h, ← h']
  case long.long.long =>
      rw [← h, ← h']
  case classRef.classRef.classRef =>
      rw [htext h h']
  case string.string.string =>
      rw [htext h h']
  case memberRef.memberRef.memberRef =>
      obtain ⟨rfl, howner, hmember⟩ := h
      obtain ⟨rfl, howner', hmember'⟩ := h'
      obtain ⟨rfl, rfl⟩ := hpair hmember hmember'
      rw [hclass howner howner']
  case nameAndType.nameAndType.nameAndType =>
      rw [htext h.1 h'.1, htext h.2 h'.2]
  case invokeDynamic.invokeDynamic.invokeDynamic =>
      obtain ⟨rfl, hmember⟩ := h
      obtain ⟨rfl, hmember'⟩ := h'
      obtain ⟨rfl, rfl⟩ := hpair hmember hmember'
      rfl

/-- **An index of a pool finds one constant.** -/
theorem IsAt.unique (h : r.IsAt pool i) (h' : r'.IsAt pool i) : r = r' := by
  obtain ⟨c, hget, hc⟩ := h.describes
  obtain ⟨c', hget', hc'⟩ := h'.describes
  obtain rfl : c = c' := Option.some.inj (hget.symm.trans hget')
  exact hc.unique hc'

end ConstantRequest

end Unjar
