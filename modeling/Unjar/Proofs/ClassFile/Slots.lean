import Unjar.Proofs.ClassFile.Reading

/-!
The slots of a constant pool.

A pool is read slot by slot.  Each constant stands in the bytes as a record, its tag and then a
payload whose size the tag tells, or the payload itself in the case of a string; a wide constant is
followed by a slot that has no record.  So the records of the slots, one after the other, are what
lies behind the number of slots, and nothing else is read.

What an index stands for is found through the indices that constants hold.  A look-up follows them
from constant to constant; it finds something if each index on the way leads to a constant of the
right kind, and it fails if one of them misses: if it lies outside the pool, or at a slot that is
not used, or at a constant of another kind.

Main definitions:

* `Unjar.Constant.Payload`, `Unjar.Constant.payloadSize` — the bytes behind a tag, and their number;
* `Unjar.Constant.IsRecord`, `Unjar.ConstantPool.Slots` — slots and the bytes they are read from;
* `Unjar.ConstantPool.Holds`, `Unjar.ConstantPool.Misses` — where an index leads;
* `Unjar.ConstantPool.Answers` — a look-up that finds what it should and fails where it should.

Main results:

* `Unjar.Constant.read_takes`, `Unjar.Constant.IsRecord.reads` — a constant is read from its record;
* `Unjar.ConstantPool.readSlots_takes`, `Unjar.ConstantPool.Slots.reads` — the slots are read from
  their records, and from no other bytes;
* `Unjar.ConstantPool.Slots.getElem?_eq_none` — the slots that are not used are those behind a wide
  constant;
* `Unjar.ConstantPool.accounts_of_read` — **the slots of a pool are accounted for**.
-/

set_option autoImplicit false

namespace Unjar

open Decoder

/-! ### Constants -/

/-- The two bytes of an index. -/
def IsIndex (bytes : Bytes) (i : Nat) : Prop := bytes.length = 2 ∧ bigEndian bytes = i

namespace Constant

/-- **The bytes behind the tag of a constant.** -/
def Payload (payload : Bytes) : Constant → Prop
  | utf8 name => ∃ length raw, payload = length ++ raw ∧ IsIndex length raw.length ∧
      Name.decode raw = some name
  | integer raw | float raw => payload = raw ∧ raw.length = 4
  | long raw | double raw => payload = raw ∧ raw.length = 8
  | methodHandle raw => payload = raw ∧ raw.length = 3
  | classRef i | string i | methodType i | module i | package i => IsIndex payload i
  | memberRef _ i j | nameAndType i j | dynamic i j | invokeDynamic i j =>
      ∃ first second, payload = first ++ second ∧ IsIndex first i ∧ IsIndex second j

/-- The number of bytes behind the tag of a constant; a string gives the number of its own bytes in
the first two of them. -/
def payloadSize (payload : Bytes) : Constant → Nat
  | utf8 _ => 2 + bigEndian (payload.take 2)
  | integer _ | float _ => 4
  | long _ | double _ => 8
  | methodHandle _ => 3
  | classRef _ | string _ | methodType _ | module _ | package _ => 2
  | memberRef .. | nameAndType .. | dynamic .. | invokeDynamic .. => 4

section

variable {payload : Bytes} {k : Constant}

theorem Payload.length_eq (h : k.Payload payload) : payload.length = k.payloadSize payload := by
  have hpair {i j : Nat} (h : ∃ first second, payload = first ++ second ∧ IsIndex first i ∧
      IsIndex second j) : payload.length = 4 := by
    obtain ⟨first, second, rfl, hfirst, hsecond⟩ := h
    rw [List.length_append, hfirst.1, hsecond.1]
  cases k with
  | utf8 name =>
      obtain ⟨length, raw, rfl, ⟨hlength, hraw⟩, -⟩ := h
      rw [payloadSize, ← hlength, List.take_left, hraw, List.length_append]
  | integer raw | float raw | long raw | double raw | methodHandle raw =>
      obtain ⟨rfl, hlength⟩ := h
      exact hlength
  | classRef i | string i | methodType i | module i | package i => exact h.1
  | memberRef kind i j | nameAndType i j | dynamic i j | invokeDynamic i j => exact hpair h

/-- **A slot and its record**: the tag and the payload of the constant in it, or nothing. -/
inductive IsRecord : Option Constant → Bytes → Prop where
  | unused : IsRecord none []
  | constant {k : Constant} {payload : Bytes} (h : k.Payload payload) :
      IsRecord (some k) (UInt8.ofNat k.tag :: payload)

/-- The number of bytes of a record. -/
def recordSize (record : Bytes) : Option Constant → Nat
  | none => 0
  | some k => 1 + k.payloadSize record.tail

theorem IsRecord.length_eq {slot : Option Constant} {record : Bytes} (h : IsRecord slot record) :
    record.length = recordSize record slot := by
  cases h with
  | unused => rfl
  | constant hpayload => rw [recordSize, List.tail_cons, ← hpayload.length_eq, List.length_cons,
      Nat.add_comm]

/-- The tags that look-ups ask for, and the constants that have them. -/
theorem form_of_tag (k : Constant) :
    (k.tag ∈ [1] ↔ ∃ name, k = utf8 name) ∧ (k.tag ∈ [7] ↔ ∃ i, k = classRef i) ∧
      (k.tag ∈ [9, 10, 11] ↔ ∃ kind i j, k = memberRef kind i j) ∧
      (k.tag ∈ [12] ↔ ∃ i j, k = nameAndType i j) ∧
      (k.tag ∈ [18] ↔ ∃ i j, k = invokeDynamic i j) := by
  rcases k with _ | _ | _ | _ | _ | _ | _ | ⟨_ | _ | _, _, _⟩ | _ | _ | _ | _ | _ | _ | _ <;>
    simp [tag, MemberKind.tag]

/-! ### Reading a constant -/

theorem isIndex_of_unsigned {bytes : Bytes} {n : Nat}
    (h : bytes.length = 2 ∧ n = bigEndian bytes) : IsIndex bytes n := ⟨h.1, h.2.symm⟩

theorem takes_pair (make : Nat → Nat → Constant) : Takes (readPair make) fun bytes k =>
    ∃ i j first second, k = make i j ∧ bytes = first ++ second ∧ IsIndex first i ∧
      IsIndex second j := by
  refine ((Takes.unsigned 2).bind fun i => (Takes.unsigned 2).bind fun j =>
    Takes.pure (make i j)).mono ?_
  rintro bytes k ⟨i, first, _, rfl, hfirst, j, second, _, rfl, hsecond, rfl, rfl⟩
  exact ⟨i, j, first, second, rfl, by rw [List.append_nil], isIndex_of_unsigned hfirst,
    isIndex_of_unsigned hsecond⟩

theorem takes_utf8 : Takes readUtf8 fun bytes k => ∃ name, k = utf8 name ∧
    (utf8 name).Payload bytes := by
  refine ((Takes.unsigned 2).bind (Q := fun (size : Nat) back k => ∃ name, k = utf8 name ∧
    (back.length : Int) = size ∧ Name.decode back = some name) fun size => ?_).mono ?_
  · refine ((Takes.take size).bind (Q := fun raw back k => back = [] ∧
      ∃ name, k = utf8 name ∧ Name.decode raw = some name) fun raw => ?_).mono ?_
    · cases hname : Name.decode raw with
      | none => exact .throw .invalidName
      | some name => exact (Takes.pure _).mono fun _ _ ⟨hback, hk⟩ => ⟨hback, name, hk, rfl⟩
    · rintro bytes k ⟨raw, front, _, rfl, ⟨rfl, hlength⟩, rfl, name, rfl, hname⟩
      rw [List.append_nil]
      exact ⟨name, rfl, hlength, hname⟩
  · rintro bytes k ⟨size, front, back, rfl, hsize, name, rfl, hlength, hname⟩
    obtain rfl : back.length = size := Int.ofNat.inj hlength
    exact ⟨name, rfl, front, back, rfl, isIndex_of_unsigned hsize, hname⟩

theorem takes_block (make : Bytes → Constant) (size : Nat) :
    Takes (make <$> Cursor.take size) fun bytes k => k = make bytes ∧ bytes.length = size :=
  ((Takes.take size).map make).mono fun _ _ ⟨_, ⟨hraw, hlength⟩, hk⟩ =>
    ⟨by rw [← hk, hraw], Int.ofNat.inj hlength⟩

/-- **A constant is read from its record.** -/
theorem read_takes (index : Nat) :
    Takes (read index) fun bytes k => IsRecord (some k) bytes := by
  refine ((Takes.unsigned 1).bind (Q := fun tag payload k => k.tag = tag ∧ k.Payload payload)
    fun tag => ?_).mono ?_
  · have hblock {make : Bytes → Constant} {size tag : Nat}
        (hmake : ∀ raw, raw.length = size → (make raw).tag = tag ∧ (make raw).Payload raw) :
        Takes (make <$> Cursor.take size) fun payload k => k.tag = tag ∧ k.Payload payload :=
      (takes_block make size).mono fun payload k ⟨hk, hlength⟩ => hk ▸ hmake payload hlength
    have hindex {make : Nat → Constant} {tag : Nat} (htag : ∀ i, (make i).tag = tag)
        (hmake : ∀ {i bytes}, IsIndex bytes i → (make i).Payload bytes) :
        Takes (make <$> Cursor.u2) fun payload k => k.tag = tag ∧ k.Payload payload :=
      ((Takes.unsigned 2).map make).mono fun _ _ ⟨i, hi, hk⟩ =>
        hk ▸ ⟨htag i, hmake (isIndex_of_unsigned hi)⟩
    have hpair {make : Nat → Nat → Constant} {tag : Nat} (htag : ∀ i j, (make i j).tag = tag)
        (hmake : ∀ {i j first second}, IsIndex first i → IsIndex second j →
          (make i j).Payload (first ++ second)) :
        Takes (readPair make) fun payload k => k.tag = tag ∧ k.Payload payload :=
      (takes_pair make).mono fun _ _ ⟨i, j, _, _, hk, hbytes, hi, hj⟩ =>
        hk ▸ hbytes ▸ ⟨htag i j, hmake hi hj⟩
    split
    case h_1 => exact takes_utf8.mono fun _ _ ⟨_, hk, hpayload⟩ => hk ▸ ⟨rfl, hpayload⟩
    all_goals
      first
      | exact hpair (fun _ _ => rfl) fun hi hj => ⟨_, _, rfl, hi, hj⟩
      | exact hindex (fun _ => rfl) id
      | exact hblock fun _ hlength => ⟨rfl, rfl, hlength⟩
      | exact .throw _
  · rintro bytes k ⟨tag, front, payload, rfl, ⟨hfront, htag⟩, rfl, hpayload⟩
    obtain ⟨b, rfl⟩ := List.length_eq_one_iff.mp hfront
    have hb : UInt8.ofNat k.tag = b := by
      rw [htag, bigEndian]
      simp
    rw [← hb]
    exact .constant hpayload

/-- An index is read from its two bytes. -/
theorem reads_index {bytes : Bytes} {i : Nat} (h : IsIndex bytes i) :
    Reads Cursor.u2 bytes i := by
  obtain ⟨hlength, rfl⟩ := h
  have hread := (Cursor.reads_take bytes).map bigEndian
  rwa [hlength] at hread

/-- And whatever is a record is read as its constant. -/
theorem IsRecord.reads {k : Constant} {record : Bytes} (h : IsRecord (some k) record)
    (index : Nat) : Reads (read index) record k := by
  have htagged {k : Constant} {body : Bytes} {d : Nat → Decoder Constant}
      (hd : Reads (d k.tag) body k) : Reads (Cursor.u1 >>= d) (UInt8.ofNat k.tag :: body) k :=
    (Cursor.reads_u1 k.tag_lt).bind hd
  have hpair {make : Nat → Nat → Constant} {body : Bytes} {i j : Nat}
      (h : ∃ first second, body = first ++ second ∧ IsIndex first i ∧ IsIndex second j) :
      Reads (readPair make) body (make i j) := by
    obtain ⟨first, second, rfl, hfirst, hsecond⟩ := h
    exact (reads_index hfirst).bind ((reads_index hsecond).bind_pure _)
  cases h with
  | @constant k payload hpayload =>
      cases k with
      | utf8 name =>
          obtain ⟨length, raw, rfl, hlength, hname⟩ := hpayload
          refine htagged ((reads_index hlength).bind
            ((Cursor.reads_take raw).bind_of_eq_pure ?_))
          simp only [hname]
      | integer raw | float raw | long raw | double raw | methodHandle raw =>
          obtain ⟨rfl, hlength⟩ := hpayload
          exact htagged (reads_block _ hlength)
      | classRef i | string i | methodType i | module i | package i =>
          exact htagged ((reads_index hpayload).map _)
      | memberRef kind i j => cases kind <;> exact htagged (hpair hpayload)
      | nameAndType i j | dynamic i j | invokeDynamic i j => exact htagged (hpair hpayload)

end

end Constant

/-! ### Slots -/

namespace ConstantPool

open Constant

/-- **Slots and their records**: behind a wide constant is a slot that is not used. -/
inductive Slots : List (Option Constant) → List Bytes → Prop where
  | nil : Slots [] []
  | narrow {k : Constant} {record : Bytes} {slots : List (Option Constant)} {records : List Bytes}
      (hk : k.isWide = false) (hrecord : IsRecord (some k) record) (h : Slots slots records) :
      Slots (some k :: slots) (record :: records)
  | wide {k : Constant} {record : Bytes} {slots : List (Option Constant)} {records : List Bytes}
      (hk : k.isWide = true) (hrecord : IsRecord (some k) record) (h : Slots slots records) :
      Slots (some k :: none :: slots) (record :: [] :: records)

section

variable {slots : List (Option Constant)} {records : List Bytes}

theorem Slots.forall₂ (h : Slots slots records) : List.Forall₂ IsRecord slots records := by
  induction h with
  | nil => exact .nil
  | narrow _ hrecord _ ih => exact .cons hrecord ih
  | wide _ hrecord _ ih => exact .cons hrecord (.cons .unused ih)

/-- The records hold as many bytes as the constants in the slots ask for. -/
theorem Slots.length_flatten (h : Slots slots records) :
    records.flatten.length = (List.zipWith recordSize records slots).sum := by
  have hrecords := h.forall₂
  clear h
  induction hrecords with
  | nil => rfl
  | cons hrecord _ ih =>
      rw [List.flatten_cons, List.length_append, List.zipWith_cons_cons, List.sum_cons, ih,
        hrecord.length_eq]

/-- **Which slots are not used**: those behind a wide constant. -/
theorem Slots.getElem?_eq_none (h : Slots slots records) {i : Nat} (hi : i < slots.length) :
    slots[i]? = some none ↔ ∃ j k, i = j + 1 ∧ slots[j]? = some (some k) ∧ k.isWide = true := by
  induction h generalizing i with
  | nil => cases hi
  | @narrow k record slots records hk _ _ ih =>
      cases i with
      | zero => simp
      | succ i =>
          have hi : i < slots.length := Nat.lt_of_succ_lt_succ hi
          rw [List.getElem?_cons_succ, ih hi]
          constructor
          · rintro ⟨j, k', rfl, hj, hk'⟩
            exact ⟨j + 1, k', rfl, hj, hk'⟩
          · rintro ⟨j, k', hij, hj, hk'⟩
            obtain rfl : i = j := Nat.succ.inj hij
            cases i with
            | zero =>
                cases hj
                rw [hk] at hk'
                cases hk'
            | succ i => exact ⟨i, k', rfl, hj, hk'⟩
  | @wide k record slots records hk _ _ ih =>
      match i with
      | 0 => simp
      | 1 => exact iff_of_true rfl ⟨0, k, rfl, rfl, hk⟩
      | i + 2 =>
          have hi : i < slots.length := Nat.lt_of_succ_lt_succ (Nat.lt_of_succ_lt_succ hi)
          rw [List.getElem?_cons_succ, List.getElem?_cons_succ, ih hi]
          constructor
          · rintro ⟨j, k', rfl, hj, hk'⟩
            exact ⟨j + 2, k', rfl, hj, hk'⟩
          · rintro ⟨j, k', hij, hj, hk'⟩
            obtain rfl : i + 1 = j := Nat.succ.inj hij
            cases i with
            | zero => cases hj
            | succ i => exact ⟨i, k', rfl, hj, hk'⟩

/-- **Slots are read from their records**, and from no other bytes. -/
theorem readSlots_takes (n index : Nat) : Takes (readSlots n index) fun block slots =>
    slots.length = n ∧ ∃ records, block = records.flatten ∧ Slots slots records := by
  induction n, index using readSlots.induct with
  | case1 index =>
      refine (Takes.pure []).mono ?_
      rintro _ _ ⟨hblock, rfl⟩
      exact ⟨rfl, [], hblock, .nil⟩
  | case2 index =>
      refine ((Constant.read_takes index).bind (Q := fun k back slots =>
        k.isWide = false ∧ back = [] ∧ slots = [some k]) fun k => ?_).mono ?_
      · cases hwide : k.isWide with
        | true => exact .throw .wideOverrun
        | false => exact (Takes.pure _).mono fun _ _ h => ⟨rfl, h⟩
      · rintro _ _ ⟨k, record, _, rfl, hrecord, hk, rfl, rfl⟩
        exact ⟨rfl, [record], by simp, .narrow hk hrecord .nil⟩
  | case3 n index ihWide ihNarrow =>
      refine ((Constant.read_takes index).bind (Q := fun k back slots => ∃ more records,
        back = records.flatten ∧ Slots more records ∧
          (k.isWide = true ∧ more.length = n ∧ slots = some k :: none :: more ∨
            k.isWide = false ∧ more.length = n + 1 ∧ slots = some k :: more)) fun k => ?_).mono ?_
      · cases hwide : k.isWide with
        | true =>
            refine (ihWide.bind fun more => Takes.pure (some k :: none :: more)).mono ?_
            rintro _ _ ⟨more, _, _, rfl, ⟨hlength, records, rfl, hslots⟩, rfl, rfl⟩
            exact ⟨more, records, List.append_nil _, hslots, .inl ⟨rfl, hlength, rfl⟩⟩
        | false =>
            refine (ihNarrow.bind fun more => Takes.pure (some k :: more)).mono ?_
            rintro _ _ ⟨more, _, _, rfl, ⟨hlength, records, rfl, hslots⟩, rfl, rfl⟩
            exact ⟨more, records, List.append_nil _, hslots, .inr ⟨rfl, hlength, rfl⟩⟩
      · rintro _ _ ⟨k, record, _, rfl, hrecord, more, records, rfl, hslots,
          ⟨hk, rfl, rfl⟩ | ⟨hk, hlength, rfl⟩⟩
        · exact ⟨rfl, record :: [] :: records, by simp, .wide hk hrecord hslots⟩
        · refine ⟨?_, record :: records, by simp, .narrow hk hrecord hslots⟩
          rw [List.length_cons, hlength]

/-- And whatever are the records of slots is read as those slots. -/
theorem Slots.reads (h : Slots slots records) (index : Nat) :
    Reads (readSlots slots.length index) records.flatten slots := by
  induction h generalizing index with
  | nil => exact .pure []
  | @narrow k record slots records hk hrecord h ih =>
      rw [List.flatten_cons]
      cases hslots : slots.length with
      | zero =>
          obtain rfl := List.length_eq_zero_iff.mp hslots
          cases h
          rw [List.length_singleton, readSlots]
          refine (hrecord.reads index).bind ?_
          rw [hk]
          exact .pure [some k]
      | succ n =>
          have hmore := (ih (index + 1)).bind_pure (some k :: ·)
          rw [hslots] at hmore
          rw [List.length_cons, hslots, readSlots]
          refine (hrecord.reads index).bind ?_
          rw [hk]
          exact hmore
  | @wide k record slots records hk hrecord _ ih =>
      have hmore := (ih (index + 2)).bind_pure (some k :: none :: ·)
      rw [List.flatten_cons, List.flatten_cons, List.nil_append, List.length_cons,
        List.length_cons, readSlots]
      refine (hrecord.reads index).bind ?_
      rw [hk]
      exact hmore

end

/-! ### The pool -/

section

variable {pool : ConstantPool} {c c' : Cursor}

/-- **A pool is read from the number of its slots and their records**, and from no other bytes. -/
theorem read_eq_ok_iff : read.run c = .ok (pool, c') ↔ ∃ count slots records,
    pool = ⟨none :: slots⟩ ∧ IsIndex count pool.size ∧ Slots slots records ∧
      c.Passes (count ++ records.flatten) c' := by
  constructor
  · intro h
    have htakes : Takes read fun block pool => ∃ count slots records,
        block = count ++ records.flatten ∧ pool = ⟨none :: slots⟩ ∧ IsIndex count pool.size ∧
          Slots slots records := by
      refine ((Takes.unsigned 2).bind (Q := fun n back (pool : ConstantPool) =>
        ∃ slots records, n = slots.length + 1 ∧ back = records.flatten ∧
          pool = ⟨none :: slots⟩ ∧ Slots slots records) fun n => ?_).mono ?_
      · cases n with
        | zero => exact .throw .emptyPool
        | succ n =>
            refine ((readSlots_takes n 1).bind fun slots => Takes.pure _).mono ?_
            rintro _ _ ⟨slots, _, _, rfl, ⟨rfl, records, rfl, hslots⟩, rfl, rfl⟩
            exact ⟨slots, records, rfl, List.append_nil _, rfl, hslots⟩
      · rintro _ _ ⟨n, count, _, rfl, hcount, slots, records, rfl, rfl, rfl, hslots⟩
        exact ⟨count, slots, records, rfl, rfl, isIndex_of_unsigned hcount, hslots⟩
    obtain ⟨_, hpasses, count, slots, records, rfl, hpool, hcount, hslots⟩ := htakes c pool c' h
    exact ⟨count, slots, records, hpool, hcount, hslots, hpasses⟩
  · rintro ⟨count, slots, records, rfl, hcount, hslots, hpasses⟩
    have hreads : Reads read (count ++ records.flatten) ⟨none :: slots⟩ := by
      refine (reads_index hcount).bind ?_
      exact (hslots.reads 1).bind_pure fun slots => (⟨none :: slots⟩ : ConstantPool)
    refine hreads.run_of_passes hpasses fun hnil => ?_
    have hlength := hcount.1
    rw [(List.append_eq_nil_iff.mp hnil).1] at hlength
    cases hlength

end

/-! ### Where an index leads -/

/-- A slot holds a constant. -/
def Holds (pool : ConstantPool) (i : Int) (k : Constant) : Prop := 0 < i ∧ pool.get? i = some k

/-- **An index misses**: it lies outside the pool, or at a slot that is not used, or at a constant
with none of the tags. -/
def Misses (pool : ConstantPool) (tags : List Nat) (i : Int) : Prop :=
  i ≤ 0 ∨ pool.size ≤ i ∨ pool.tag? i = none ∨ ∃ tag, pool.tag? i = some tag ∧ tag ∉ tags

/-- **A look-up answers**: it finds what `Finds` tells, and it fails if `Fails` tells so. -/
structure Answers {α : Type} (result : Except Malformed α) (Finds : α → Prop) (Fails : Prop) :
    Prop where
  finds : ∀ a, result = .ok a ↔ Finds a
  fails : (∃ cause, result = .error cause) ↔ Fails

namespace Answers

section

variable {α β : Type} {e : Except Malformed α} {f : α → Except Malformed β} {F F' : α → Prop}
  {G : α → β → Prop} {E E' : Prop} {H : α → Prop}

theorem congr (h : Answers e F E) (hF : ∀ a, F a ↔ F' a) (hE : E ↔ E') : Answers e F' E' :=
  ⟨fun a => (h.finds a).trans (hF a), h.fails.trans hE⟩

/-- Whoever does not fail finds something. -/
theorem fails_or_finds (h : Answers e F E) : E ∨ ∃ a, F a := by
  cases e with
  | error cause => exact .inl (h.fails.mp ⟨cause, rfl⟩)
  | ok a => exact .inr ⟨a, (h.finds a).mp rfl⟩

/-- **Look-ups in sequence**: the second starts from what the first finds. -/
theorem bind (h : Answers e F E) (hf : ∀ a, Answers (f a) (G a) (H a)) :
    Answers (e >>= f) (fun b => ∃ a, F a ∧ G a b) (E ∨ ∃ a, F a ∧ H a) where
  finds b := by simp only [bind_eq_ok, h.finds, (hf _).finds]
  fails := by
    rw [← h.fails]
    constructor
    · rintro ⟨cause, herror⟩
      refine (bind_eq_error herror).imp (fun he => ⟨cause, he⟩) ?_
      rintro ⟨a, ha, hcause⟩
      exact ⟨a, (h.finds a).mp ha, (hf a).fails.mp ⟨cause, hcause⟩⟩
    · rintro (⟨cause, rfl⟩ | ⟨a, ha, hH⟩)
      · exact ⟨cause, rfl⟩
      · obtain ⟨cause, hcause⟩ := (hf a).fails.mpr hH
        rw [(h.finds a).mpr ha]
        exact ⟨cause, hcause⟩

/-- Where the second does not depend on the first, it is enough that one of them fails. -/
theorem bind_of_const {H : Prop} (h : Answers e F E) (hf : ∀ a, Answers (f a) (G a) H) :
    Answers (e >>= f) (fun b => ∃ a, F a ∧ G a b) (E ∨ H) := by
  refine (h.bind hf).congr (fun _ => Iff.rfl) ?_
  constructor
  · exact Or.imp_right fun ⟨_, _, hH⟩ => hH
  · rintro (hE | hH)
    · exact .inl hE
    · exact h.fails_or_finds.imp_right fun ⟨a, ha⟩ => ⟨a, ha, hH⟩

theorem bind_pure (h : Answers e F E) (f : α → β) :
    Answers (e >>= fun a => pure (f a)) (fun b => ∃ a, F a ∧ f a = b) E := by
  have hpure (a : α) : Answers (pure (f a) : Except Malformed β) (f a = ·) False :=
    ⟨fun _ => ⟨Except.ok.inj, congrArg _⟩, ⟨fun ⟨_, hcause⟩ => (nomatch hcause), False.elim⟩⟩
  exact (h.bind_of_const hpure).congr (fun _ => Iff.rfl) (iff_of_eq (or_false E))

end

end Answers

section

variable {pool : ConstantPool} {i : Int} {k : Constant}

theorem tag?_eq_some_iff {tag : Nat} :
    pool.tag? i = some tag ↔ ∃ k, pool.Holds i k ∧ k.tag = tag := by
  unfold tag? Holds
  by_cases hi : 0 < i
  · simp [hi]
  · simp [hi]

theorem Holds.lt_size (h : pool.Holds i k) : i < pool.size := by
  obtain ⟨hi, hget⟩ := h
  rw [get?, if_neg (by omega), Option.join_eq_some_iff] at hget
  have hlt : i.toNat < pool.slots.length := (List.getElem?_eq_some_iff.mp hget).1
  rw [size]
  omega

theorem Holds.unique {k' : Constant} (h : pool.Holds i k) (h' : pool.Holds i k') : k = k' :=
  Option.some.inj (h.2.symm.trans h'.2)

theorem misses_iff {tags : List Nat} :
    pool.Misses tags i ↔ ¬∃ k, pool.Holds i k ∧ k.tag ∈ tags := by
  constructor
  · rintro hmiss ⟨k, hk, htag⟩
    rcases hmiss with hle | hge | hnone | ⟨tag, hfound, htags⟩
    · exact absurd hk.1 (by omega)
    · exact absurd hk.lt_size (by omega)
    · rw [tag?_eq_some_iff.mpr ⟨k, hk, rfl⟩] at hnone
      cases hnone
    · obtain ⟨k', hk', rfl⟩ := tag?_eq_some_iff.mp hfound
      rw [hk.unique hk'] at htag
      exact htags htag
  · intro hnone
    cases htag : pool.tag? i with
    | none => exact .inr (.inr (.inl htag))
    | some tag =>
        obtain ⟨k, hk, rfl⟩ := tag?_eq_some_iff.mp htag
        exact .inr (.inr (.inr ⟨k.tag, htag, fun htags => hnone ⟨k, hk, htags⟩⟩))

/-- What is selected at an index comes from the constant there, and there is nothing to select where
the index misses. -/
theorem answers_expect {α : Type} {tags : List Nat} {select : Constant → Option α}
    (hselect : ∀ k, (∃ a, select k = some a) ↔ k.tag ∈ tags) (i : Int) :
    Answers (pool.expect tags select i) (fun a => ∃ k, pool.Holds i k ∧ select k = some a)
      (pool.Misses tags i) := by
  have hfinds (a : α) : pool.expect tags select i = .ok a ↔
      ∃ k, pool.Holds i k ∧ select k = some a := by
    constructor
    · intro h
      obtain ⟨hi, k, hk, ha⟩ := of_expect_eq_ok h
      exact ⟨k, ⟨hi, hk⟩, ha⟩
    · rintro ⟨k, hk, ha⟩
      rw [expect, if_neg (not_not.mpr ⟨hk.1, hk.lt_size⟩), hk.2, Option.bind_some, ha]
  refine ⟨hfinds, ?_⟩
  have herror : (∃ cause, pool.expect tags select i = .error cause) ↔
      ¬∃ a, pool.expect tags select i = .ok a := by
    cases pool.expect tags select i with
    | error cause => simp
    | ok a => simp
  rw [herror, misses_iff]
  simp only [hfinds, ← hselect]
  exact not_congr ⟨fun ⟨a, k, hk, ha⟩ => ⟨k, hk, a, ha⟩, fun ⟨k, hk, a, ha⟩ => ⟨a, k, hk, ha⟩⟩

/-- A look-up for the constants of one form. -/
theorem answers_form {α : Type} {tags : List Nat} {select : Constant → Option α}
    {make : α → Constant} (hselect : ∀ k a, select k = some a ↔ k = make a)
    (htags : ∀ k, k.tag ∈ tags ↔ ∃ a, k = make a) (i : Int) :
    Answers (pool.expect tags select i) (fun a => pool.Holds i (make a)) (pool.Misses tags i) := by
  refine (answers_expect (fun k => ?_) i).congr (fun a => ?_) Iff.rfl
  · simp only [hselect, htags]
  · simp only [hselect, exists_eq_right]

end

/-! ### What an index stands for -/

section

variable (pool : ConstantPool) (i : Int)

/-- A class leads to a string. -/
def NamesClass (name : Name) : Prop :=
  ∃ j : Nat, pool.Holds i (.classRef j) ∧ pool.Holds j (.utf8 name)

def MissesClass : Prop :=
  pool.Misses [7] i ∨ ∃ j : Nat, pool.Holds i (.classRef j) ∧ pool.Misses [1] j

/-- A name and a type lead to two strings. -/
def NamesTyped (name descriptor : Name) : Prop :=
  ∃ j k : Nat, pool.Holds i (.nameAndType j k) ∧ pool.Holds j (.utf8 name) ∧
    pool.Holds k (.utf8 descriptor)

def MissesTyped : Prop :=
  pool.Misses [12] i ∨ ∃ j k : Nat, pool.Holds i (.nameAndType j k) ∧
    (pool.Misses [1] j ∨ pool.Misses [1] k)

/-- A reference to a member leads to a class, and to a name and a type. -/
def NamesMember (ref : MemberRef) : Prop :=
  ∃ (kind : MemberKind) (j k : Nat), pool.Holds i (.memberRef kind j k) ∧
    pool.NamesClass j ref.owner ∧ pool.NamesTyped k ref.name ref.descriptor

def MissesMember : Prop :=
  pool.Misses [9, 10, 11] i ∨ ∃ (kind : MemberKind) (j k : Nat),
    pool.Holds i (.memberRef kind j k) ∧ (pool.MissesTyped k ∨ pool.MissesClass j)

/-- A dynamic call site leads to a name and a type. -/
def NamesCallSite (descriptor : Name) : Prop :=
  ∃ (j k : Nat) (name : Name), pool.Holds i (.invokeDynamic j k) ∧
    pool.NamesTyped k name descriptor

def MissesCallSite : Prop :=
  pool.Misses [18] i ∨ ∃ j k : Nat, pool.Holds i (.invokeDynamic j k) ∧ pool.MissesTyped k

/-- The string at an index. -/
theorem answers_utf8 :
    Answers (pool.utf8 i) (fun name => pool.Holds i (.utf8 name)) (pool.Misses [1] i) :=
  answers_form (fun k _ => by cases k <;> simp) (fun k => k.form_of_tag.1) i

/-- The class at an index. -/
theorem answers_className :
    Answers (pool.className i) (pool.NamesClass i) (pool.MissesClass i) := by
  refine Answers.bind (?_ : Answers _ (fun j : Nat => pool.Holds i (.classRef j))
    (pool.Misses [7] i)) fun j => answers_utf8 pool j
  exact answers_form (fun k _ => by cases k <;> simp) (fun k => k.form_of_tag.2.1) i

/-- The name and the type at an index. -/
theorem answers_nameAndType : Answers (pool.nameAndType i)
    (fun found => pool.NamesTyped i found.1 found.2) (pool.MissesTyped i) := by
  have hstrings (pair : Nat × Nat) := (answers_utf8 pool pair.1).bind_of_const
    fun name => (answers_utf8 pool pair.2).bind_pure fun descriptor => (name, descriptor)
  refine (Answers.bind (?_ : Answers _ (fun pair : Nat × Nat =>
    pool.Holds i (.nameAndType pair.1 pair.2)) (pool.Misses [12] i)) hstrings).congr
      (fun found => ?_) ?_
  · exact answers_form (fun k _ => by cases k <;> simp [Prod.ext_iff, eq_comm])
      (fun k => by rw [k.form_of_tag.2.2.2.1, Prod.exists]) i
  · simp [NamesTyped, Prod.ext_iff]
  · simp [MissesTyped]

/-- The member at an index. -/
theorem answers_memberRef :
    Answers (pool.memberRef i) (pool.NamesMember i) (pool.MissesMember i) := by
  have hparts (pair : Nat × Nat) := (answers_nameAndType pool pair.2).bind_of_const
    fun found => (answers_className pool pair.1).bind_pure fun owner =>
      (⟨owner, found.1, found.2⟩ : MemberRef)
  refine (Answers.bind (?_ : Answers _ (fun pair : Nat × Nat =>
    ∃ kind, pool.Holds i (.memberRef kind pair.1 pair.2)) (pool.Misses [9, 10, 11] i)) hparts).congr
      (fun ref => ?_) ?_
  · refine (answers_expect (fun k => ?_) i).congr (fun pair => ?_) Iff.rfl
    · rw [k.form_of_tag.2.2.1]
      cases k <;> simp
    · constructor
      · rintro ⟨k, hk, hpair⟩
        cases k <;> cases hpair
        exact ⟨_, hk⟩
      · rintro ⟨kind, hk⟩
        exact ⟨_, hk, rfl⟩
  · constructor
    · rintro ⟨⟨j, k⟩, ⟨kind, hi⟩, ⟨name, descriptor⟩, htyped, owner, howner, rfl⟩
      exact ⟨kind, j, k, hi, howner, htyped⟩
    · rintro ⟨kind, j, k, hi, howner, htyped⟩
      exact ⟨(j, k), ⟨kind, hi⟩, (ref.name, ref.descriptor), htyped, ref.owner, howner, rfl⟩
  · refine or_congr_right ⟨?_, ?_⟩
    · rintro ⟨⟨j, k⟩, ⟨kind, hi⟩, hmisses⟩
      exact ⟨kind, j, k, hi, hmisses⟩
    · rintro ⟨kind, j, k, hi, hmisses⟩
      exact ⟨(j, k), ⟨kind, hi⟩, hmisses⟩

/-- The descriptor of the dynamic call site at an index. -/
theorem answers_invokeDynamicDescriptor :
    Answers (pool.invokeDynamicDescriptor i) (pool.NamesCallSite i) (pool.MissesCallSite i) := by
  have htyped (k : Nat) := (answers_nameAndType pool k).bind_pure Prod.snd
  refine (Answers.bind (?_ : Answers _ (fun k : Nat => ∃ j, pool.Holds i (.invokeDynamic j k))
    (pool.Misses [18] i)) htyped).congr (fun descriptor => ?_) ?_
  · refine (answers_expect (fun k => ?_) i).congr (fun pair => ?_) Iff.rfl
    · rw [k.form_of_tag.2.2.2.2]
      cases k <;> simp
    · constructor
      · rintro ⟨k, hk, hpair⟩
        cases k <;> cases hpair
        exact ⟨_, hk⟩
      · rintro ⟨j, hk⟩
        exact ⟨_, hk, rfl⟩
  · constructor
    · rintro ⟨k, ⟨j, hi⟩, ⟨name, descriptor⟩, hk, rfl⟩
      exact ⟨j, k, name, hi, hk⟩
    · rintro ⟨j, k, name, hi, hk⟩
      exact ⟨k, ⟨j, hi⟩, (name, descriptor), hk, rfl⟩
  · refine or_congr_right ⟨?_, ?_⟩
    · rintro ⟨k, ⟨j, hi⟩, hmisses⟩
      exact ⟨j, k, hi, hmisses⟩
    · rintro ⟨j, k, hi, hmisses⟩
      exact ⟨k, ⟨j, hi⟩, hmisses⟩

end

/-! ### The account -/

section

variable {slots : List (Option Constant)}

theorem holds_succ (j : Nat) (k : Constant) :
    Holds ⟨none :: slots⟩ (j + 1) k ↔ slots[j]? = some (some k) := by
  have hindex : ((j : Int) + 1).toNat = j + 1 := by omega
  rw [Holds, get?, if_neg (by omega), hindex, List.getElem?_cons_succ, Option.join_eq_some_iff]
  exact and_iff_right (by omega)

/-- **Where a pool has no tag**: outside it, and behind a wide constant. -/
theorem Slots.tag?_eq_none {records : List Bytes} (h : Slots slots records) (i : Int) :
    tag? ⟨none :: slots⟩ i = none ↔ i ≤ 0 ∨ size ⟨none :: slots⟩ ≤ i ∨
      ∃ k, Holds ⟨none :: slots⟩ (i - 1) k ∧ k.isWide = true := by
  rcases Int.lt_or_le 0 i with hpos | hle
  · obtain ⟨n, rfl⟩ : ∃ n : Nat, i = n + 1 := ⟨(i - 1).toNat, by omega⟩
    have hsize : ((size ⟨none :: slots⟩ : Nat) : Int) ≤ n + 1 ↔ slots.length ≤ n := by
      rw [size, List.length_cons]
      omega
    have hnone : tag? ⟨none :: slots⟩ (n + 1) = none ↔ ¬∃ k, slots[n]? = some (some k) := by
      simp only [← holds_succ, Option.eq_none_iff_forall_ne_some, ne_eq, tag?_eq_some_iff]
      constructor
      · rintro h ⟨k, hk⟩
        exact h k.tag ⟨k, hk, rfl⟩
      · rintro h _ ⟨k, hk, -⟩
        exact h ⟨k, hk⟩
    rw [hnone, hsize, or_iff_right (by omega), Int.add_sub_cancel]
    rcases Nat.lt_or_ge n slots.length with hn | hn
    · rw [or_iff_right (by omega)]
      trans slots[n]? = some none
      · rw [List.getElem?_eq_getElem hn]
        cases slots[n] <;> simp
      · rw [h.getElem?_eq_none hn]
        constructor
        · rintro ⟨j, k, rfl, hk, hwide⟩
          exact ⟨k, (holds_succ j k).mpr hk, hwide⟩
        · rintro ⟨k, hk, hwide⟩
          obtain ⟨j, rfl⟩ : ∃ j, n = j + 1 := ⟨n - 1, by have := hk.1; omega⟩
          exact ⟨j, k, rfl, (holds_succ j k).mp hk, hwide⟩
    · refine iff_of_true ?_ (.inl hn)
      rw [List.getElem?_eq_none hn]
      simp
  · refine iff_of_true ?_ (.inl hle)
    rw [tag?, if_neg (by omega)]

end

/-- **The slots of a pool are accounted for.**  A pool that is read has as many slots as the first
two bytes tell, and behind these it takes the records of its slots and no other byte.  It has no tag
outside and behind a `long` or a `double`, and only there; and each look-up finds what the indices
in the records lead to, and fails where one of them misses. -/
theorem accounts_of_read {pool : ConstantPool} {c c' : Cursor}
    (h : read.run c = .ok (pool, c')) :
    ∃ (count : Bytes) (records : List Bytes), IsIndex count pool.size ∧
      List.Forall₂ IsRecord pool.slots records ∧
      c.ahead = count ++ records.flatten ++ c'.ahead ∧
      c'.offset = c.offset + (2 + (List.zipWith recordSize records pool.slots).sum) ∧
      ∀ i : Int,
        (pool.tag? i = none ↔ i ≤ 0 ∨ pool.size ≤ i ∨
          ∃ raw, pool.Holds (i - 1) (.long raw) ∨ pool.Holds (i - 1) (.double raw)) ∧
        Answers (pool.className i) (pool.NamesClass i) (pool.MissesClass i) ∧
        Answers (pool.nameAndType i) (fun found => pool.NamesTyped i found.1 found.2)
          (pool.MissesTyped i) ∧
        Answers (pool.memberRef i) (pool.NamesMember i) (pool.MissesMember i) ∧
        Answers (pool.invokeDynamicDescriptor i) (pool.NamesCallSite i)
          (pool.MissesCallSite i) := by
  obtain ⟨count, slots, records, rfl, hcount, hslots, hpasses⟩ := read_eq_ok_iff.mp h
  have hwide (i : Int) : (∃ k, Holds ⟨none :: slots⟩ i k ∧ k.isWide = true) ↔
      ∃ raw, Holds ⟨none :: slots⟩ i (.long raw) ∨ Holds ⟨none :: slots⟩ i (.double raw) := by
    constructor
    · rintro ⟨k, hk, hwide⟩
      cases k with
      | long raw => exact ⟨raw, .inl hk⟩
      | double raw => exact ⟨raw, .inr hk⟩
      | _ => cases hwide
    · rintro ⟨raw, hk | hk⟩
      · exact ⟨.long raw, hk, rfl⟩
      · exact ⟨.double raw, hk, rfl⟩
  refine ⟨count, [] :: records, hcount, .cons .unused hslots.forall₂, ?_, ?_, fun i => ?_⟩
  · rw [List.flatten_cons, List.nil_append]
    exact hpasses.ahead
  · rw [hpasses.offset, List.length_append, hcount.1, hslots.length_flatten,
      List.zipWith_cons_cons, List.sum_cons, recordSize, Nat.zero_add]
  · rw [← hwide]
    exact ⟨hslots.tag?_eq_none i, answers_className _ i, answers_nameAndType _ i,
      answers_memberRef _ i, answers_invokeDynamicDescriptor _ i⟩

/-- A `long` in the first two of five slots, then a class and its name. -/
def wideSample : Bytes := [0, 5, 5, 0, 0, 0, 0, 0, 0, 0, 42, 7, 0, 4, 1, 0, 1, 65]

def widePool : ConstantPool :=
  ⟨[none, some (.long [0, 0, 0, 0, 0, 0, 0, 42]), none, some (.classRef 4), some (.utf8 [65])]⟩

theorem accounts_of_read_wide :
    read.run ⟨0, wideSample ++ [202], 0⟩ = .ok (widePool, ⟨18, [202], 0⟩) ∧
      (∃ records : List Bytes, List.Forall₂ IsRecord widePool.slots records ∧
        2 + (List.zipWith recordSize records widePool.slots).sum = 18) ∧
      (widePool.tag? 2 = none ↔ (2 : Int) ≤ 0 ∨ widePool.size ≤ (2 : Int) ∨
        ∃ raw, widePool.Holds 1 (.long raw) ∨ widePool.Holds 1 (.double raw)) ∧
      Answers (widePool.className 3) (widePool.NamesClass 3) (widePool.MissesClass 3) := by
  have hread : read.run ⟨0, wideSample ++ [202], 0⟩ = .ok (widePool, ⟨18, [202], 0⟩) := by
    decide +kernel
  obtain ⟨_, records, _, hrecords, _, hoffset, hindex⟩ := accounts_of_read hread
  have hsize := (hoffset.trans (Nat.zero_add _)).symm
  exact ⟨hread, ⟨records, hrecords, hsize⟩, (hindex 2).1, (hindex 3).2.1⟩

end ConstantPool

end Unjar
