import Mathlib.Data.List.Forall2
import Unjar.Proofs.ClassFile.Session
import Unjar.Proofs.Decoding

/-!
What building adds.

A builder only ever adds entries to its list, and an entry keeps its index.  So whatever an act of
building tells about indices stays true of every longer list, and it is enough to state it that way:
`Building.Adds` says of an act that it adds entries, which leave the list consistent, changes
nothing else, and that its answer has a property in every list of entries that the builder may come
to hold.

Main definitions:

* `Unjar.Entry.Consistent` — every entry stands once and fits its fields, and every class has its
  name among the entries;
* `Unjar.Building.Adds` — what an act adds, and what its answer tells from then on.

Main results:

* `Unjar.Entry.indexIn_append` — an entry keeps its index when others are added;
* `Unjar.Building.Adds.bind`, `Unjar.Building.Adds.mapM` — acts in sequence;
* `Unjar.ConstantRequest.adds_place` — **the index that is answered is that of the constant.**
-/

set_option autoImplicit false

namespace Unjar

/-! ### Entries and their indices -/

namespace Entry

theorem slots_pos (e : Entry) : 0 < e.slots := by
  unfold slots Constant.slots
  split <;> omega

theorem le_of_indexIn {e : Entry} {first i : Nat} {entries : List Entry}
    (h : e.indexIn first entries = some i) : first ≤ i := by
  induction entries generalizing first with
  | nil => cases h
  | cons d more ih =>
      unfold indexIn at h
      split at h
      · cases h
        exact Nat.le_refl _
      · have := ih h
        omega

theorem lt_of_indexIn {e : Entry} {first i : Nat} {entries : List Entry}
    (h : e.indexIn first entries = some i) :
    i < entries.foldl (fun n e => n + e.slots) first := by
  have hgrow (l : List Entry) (n : Nat) : n ≤ l.foldl (fun n e => n + e.slots) n := by
    induction l generalizing n with
    | nil => exact Nat.le_refl n
    | cons d l ih => exact Nat.le_trans (Nat.le_add_right n d.slots) (ih _)
  induction entries generalizing first with
  | nil => cases h
  | cons d more ih =>
      unfold indexIn at h
      split at h
      · cases h
        exact Nat.lt_of_lt_of_le (Nat.lt_add_of_pos_right d.slots_pos) (hgrow more _)
      · exact ih h

/-- The index of an entry does not change when entries are added behind. -/
theorem indexIn_append {e : Entry} {first i : Nat} {entries : List Entry} (more : List Entry)
    (h : e.indexIn first entries = some i) : e.indexIn first (entries ++ more) = some i := by
  induction entries generalizing first with
  | nil => cases h
  | cons d rest ih =>
      simp only [indexIn, List.cons_append] at h ⊢
      split at h
      · next hd => rw [if_pos hd, h]
      · next hd => rw [if_neg hd, ih h]

/-- An entry that is not there yet gets the first index behind the others. -/
theorem indexIn_append_self {e : Entry} {first : Nat} {entries : List Entry}
    (h : e.indexIn first entries = none) :
    e.indexIn first (entries ++ [e]) = some (entries.foldl (fun n e => n + e.slots) first) := by
  induction entries generalizing first with
  | nil => simp [indexIn]
  | cons d rest ih =>
      simp only [indexIn, List.cons_append, List.foldl_cons] at h ⊢
      split at h
      · cases h
      · next hd => rw [if_neg hd, ih h]

theorem mem_of_indexIn {e : Entry} {first i : Nat} {entries : List Entry}
    (h : e.indexIn first entries = some i) : e ∈ entries := by
  induction entries generalizing first with
  | nil => cases h
  | cons d more ih =>
      unfold indexIn at h
      split at h
      · next hd => exact hd ▸ List.mem_cons_self
      · exact List.mem_cons_of_mem d (ih h)

theorem not_mem_of_indexIn {e : Entry} {first : Nat} {entries : List Entry}
    (h : e.indexIn first entries = none) : e ∉ entries := by
  induction entries generalizing first with
  | nil => exact List.not_mem_nil
  | cons d more ih =>
      unfold indexIn at h
      split at h
      · cases h
      · next hd =>
        rw [List.mem_cons, not_or]
        exact ⟨fun he => hd he.symm, ih h⟩

end Entry

/-! ### Consistent entries -/

/-- The parts of a constant fit their fields, and a class has its name among the entries.  A string
is an entry of its own. -/
def Constant.FitsIn (entries : List Entry) : Constant → Prop
  | utf8 _ => False
  | integer raw | float raw => raw.length = 4
  | long raw | double raw => raw.length = 8
  | methodHandle raw => raw.length = 3
  | classRef i => i < 0x10000 ∧ ∃ name, ConstantRequest.textIndex entries name = some i
  | string i | methodType i | module i | package i => i < 0x10000
  | memberRef _ i j | nameAndType i j | dynamic i j | invokeDynamic i j =>
    i < 0x10000 ∧ j < 0x10000

namespace Entry

/-- The parts of an entry fit their fields, and a class has its name among the entries. -/
def FitsIn (entries : List Entry) : Entry → Prop
  | text value => (Name.encodeUtf8 value).length < 0x10000
  | other c => c.FitsIn entries

theorem FitsIn.append {e : Entry} {entries : List Entry} (h : e.FitsIn entries)
    (more : List Entry) : e.FitsIn (entries ++ more) := by
  cases e with
  | text value => exact h
  | other c =>
      cases c with
      | classRef i =>
          obtain ⟨hi, name, hname⟩ := h
          exact ⟨hi, name, indexIn_append more hname⟩
      | _ => exact h

/-- **Entries as a builder keeps them**: each stands once, and all fit. -/
structure Consistent (entries : List Entry) : Prop where
  nodup : entries.Nodup
  fits : ∀ e ∈ entries, e.FitsIn entries

theorem Consistent.nil : Consistent [] := ⟨List.nodup_nil, by simp⟩

theorem Consistent.concat {e : Entry} {entries : List Entry} (h : Consistent entries)
    (hnew : e ∉ entries) (hfit : e.FitsIn entries) : Consistent (entries ++ [e]) := by
  refine ⟨List.nodup_append.2 ⟨h.nodup, by simp, ?_⟩, ?_⟩
  · rintro d hd _ he rfl
    rw [List.mem_singleton] at he
    exact hnew (he ▸ hd)
  · intro d hd
    rcases List.mem_append.1 hd with hd | hd
    · exact (h.fits d hd).append [e]
    · rw [List.mem_singleton.1 hd]
      exact hfit.append [e]

end Entry

/-! ### Acts of building -/

namespace Building

variable {α β : Type}

/-- What an act of building adds to a builder, and what its answer tells: it adds entries, which
keep the list consistent, and changes nothing else, and its answer has a property in every list of
entries from then on. -/
def AddsAt (b : ClassFileBuilder) (act : Building α) (tells : α → List Entry → Prop) : Prop :=
  ∃ more : List Entry, (Entry.Consistent b.entries → Entry.Consistent (b.entries ++ more)) ∧
    (act.run.run b).2 = { b with entries := b.entries ++ more } ∧
    ∀ a, (act.run.run b).1 = .ok a → ∀ later, tells a (b.entries ++ more ++ later)

/-- **What an act of building adds** to any builder. -/
def Adds (act : Building α) (tells : α → List Entry → Prop) : Prop := ∀ b, AddsAt b act tells

/-- Two acts in sequence: what the first answer tells is known where the second begins. -/
theorem AddsAt.bind {b : ClassFileBuilder} {act : Building α} {next : α → Building β}
    {P : α → List Entry → Prop} {Q : α → β → List Entry → Prop} (hact : AddsAt b act P)
    (hnext : ∀ a b', P a b'.entries → AddsAt b' (next a) (Q a)) :
    AddsAt b (act >>= next) fun c entries => ∃ a, P a entries ∧ Q a c entries := by
  obtain ⟨more, hmore, hstate, htells⟩ := hact
  have hrun : ((act >>= next).run.run b) =
      match (act.run.run b).1 with
      | .ok a => (next a).run.run (act.run.run b).2
      | .error cause => (.error cause, (act.run.run b).2) := by
    simp only [ExceptT.run_bind, StateT.run_bind]
    cases act.run.run b with
    | mk answer b' => cases answer <;> rfl
  unfold AddsAt
  cases hanswer : (act.run.run b).1 with
  | error cause =>
      simp only [hanswer] at hrun
      rw [hrun]
      -- the entries of an act that fails stay, and it has no answer that tells anything
      exact ⟨more, hmore, hstate, fun _ h => by cases h⟩
  | ok a =>
      simp only [hanswer] at hrun
      rw [hrun]
      have hentries : (act.run.run b).2.entries = b.entries ++ more := by rw [hstate]
      have htold : P a (act.run.run b).2.entries := by
        rw [hentries]
        simpa using htells a hanswer []
      obtain ⟨more', hmore', hstate', htells'⟩ := hnext a _ htold
      rw [hentries] at hmore' hstate' htells'
      refine ⟨more ++ more', ?_, ?_, ?_⟩
      · intro h
        rw [← List.append_assoc]
        exact hmore' (hmore h)
      · rw [hstate', hstate, List.append_assoc]
      · intro c hc later
        refine ⟨a, ?_, ?_⟩
        · have := htells a hanswer (more' ++ later)
          simpa only [List.append_assoc] using this
        · have := htells' c hc later
          simpa only [List.append_assoc] using this

theorem AddsAt.mono {b : ClassFileBuilder} {act : Building α} {P Q : α → List Entry → Prop}
    (h : AddsAt b act P) (hsub : ∀ a entries, P a entries → Q a entries) : AddsAt b act Q := by
  obtain ⟨more, hmore, hstate, htells⟩ := h
  exact ⟨more, hmore, hstate, fun a ha later => hsub _ _ (htells a ha later)⟩

namespace Adds

theorem pure {P : α → List Entry → Prop} (a : α) (h : ∀ entries, P a entries) :
    Adds (Pure.pure a) P := by
  intro b
  refine ⟨[], by simp, by simp; rfl, ?_⟩
  intro a' ha later
  cases ha
  exact h _

theorem lift {P : α → List Entry → Prop} (e : Except OutOfRange α)
    (h : ∀ a, e = .ok a → ∀ entries, P a entries) : Adds (liftM e) P := by
  intro b
  refine ⟨[], by simp, by simp; rfl, ?_⟩
  intro a ha later
  exact h a ha _

theorem mono {act : Building α} {P Q : α → List Entry → Prop} (h : Adds act P)
    (hsub : ∀ a entries, P a entries → Q a entries) : Adds act Q :=
  fun b => (h b).mono hsub

/-- Two acts in sequence: what the first answer tells is known of the second. -/
theorem bind {act : Building α} {next : α → Building β} {P : α → List Entry → Prop}
    {Q : α → β → List Entry → Prop} (hact : Adds act P)
    (hnext : ∀ a entries, P a entries → Adds (next a) (Q a)) :
    Adds (act >>= next) fun b entries => ∃ a, P a entries ∧ Q a b entries :=
  fun b => (hact b).bind fun a b' h => hnext a b'.entries h b'

/-- An act for each element of a list. -/
theorem mapM {ρ : Type} {act : ρ → Building α} {P : ρ → α → List Entry → Prop} {rows : List ρ}
    (h : ∀ row ∈ rows, Adds (act row) (P row)) :
    Adds (rows.mapM act) fun answers entries =>
      List.Forall₂ (fun row a => P row a entries) rows answers := by
  induction rows with
  | nil =>
      rw [List.mapM_nil]
      exact pure [] fun _ => .nil
  | cons row rows ih =>
      rw [List.mapM_cons]
      have hrest := ih fun r hr => h r (List.mem_cons_of_mem row hr)
      have hall := (h row List.mem_cons_self).bind fun a _ _ =>
        hrest.bind fun answers _ _ => pure (P := fun all _ => all = a :: answers) _ fun _ => rfl
      refine hall.mono ?_
      rintro _ entries ⟨a, ha, answers, hanswers, rfl⟩
      exact .cons ha hanswers

end Adds

end Building

/-! ### Constants -/

theorem unsignedField_eq_ok {size : Nat} {n : Int} {bytes : Bytes} :
    unsignedField size n = .ok bytes ↔
      ∃ k : Nat, n = k ∧ k < valuesOfBits (8 * size) ∧ bytes = bytesOfNat size k := by
  unfold unsignedField
  split
  · next hn =>
    obtain ⟨k, rfl⟩ := Int.eq_ofNat_of_zero_le hn.1
    constructor
    · intro h
      cases h
      exact ⟨k, rfl, by omega, rfl⟩
    · rintro ⟨k', hk, -, rfl⟩
      rw [hk]
      rfl
  · next hn =>
    constructor
    · intro h
      cases h
    · rintro ⟨k, rfl, hk, -⟩
      exact absurd ⟨by omega, by omega⟩ hn

theorem unsignedField_short {k : Nat} (h : k < 0x10000) :
    unsignedField 2 (k : Int) = .ok (bytesOfNat 2 k) :=
  unsignedField_eq_ok.2 ⟨k, rfl, h, rfl⟩

theorem signedField_length {size : Nat} {n : Int} {bytes : Bytes}
    (h : signedField size n = .ok bytes) : bytes.length = size := by
  simp only [signedField] at h
  split at h
  · cases h
    exact bytesOfNat_length size _
  · cases h

namespace ClassFileBuilder

open Building

/-- A number in two bytes tells its size and takes no entry. -/
theorem adds_shortField (n : Int) :
    Adds (shortField n) fun bytes _ => ∃ k : Nat, n = k ∧ k < 0x10000 ∧ bytes = bytesOfNat 2 k :=
  .lift _ fun _ h _ => unsignedField_eq_ok.1 h

theorem run_place (e : Entry) (b : ClassFileBuilder) :
    (place e).run.run b =
      match e.indexIn 1 b.entries with
      | some i => (.ok i, b)
      | none => (.ok b.nextIndex, { b with entries := b.entries ++ [e] }) := by
  change ((match e.indexIn 1 b.entries with
    | some i => pure i
    | none => do
      set { b with entries := b.entries ++ [e] }
      pure b.nextIndex : Building Nat)).run.run b = _
  cases e.indexIn 1 b.entries with
  | some i => rfl
  | none => rfl

/-- **An entry is given its index**, whether it is new or not. -/
theorem addsAt_place {e : Entry} {b : ClassFileBuilder} (hfit : e.FitsIn b.entries) :
    AddsAt b (place e) fun i entries => e.indexIn 1 entries = some i := by
  unfold AddsAt
  rw [run_place]
  cases he : e.indexIn 1 b.entries with
  | some i =>
      refine ⟨[], by simp, by simp, ?_⟩
      intro a ha later
      cases ha
      simpa using Entry.indexIn_append later he
  | none =>
      refine ⟨[e], fun h => h.concat (Entry.not_mem_of_indexIn he) hfit, rfl, ?_⟩
      intro a ha later
      cases ha
      exact Entry.indexIn_append later (Entry.indexIn_append_self he)

theorem adds_utf8 (value : Text) :
    Adds (utf8 value) fun i entries => ConstantRequest.textIndex entries value = some i := by
  refine .mono (.bind (adds_shortField _) fun _ _ hshort b => addsAt_place ?_) ?_
  · obtain ⟨k, hk, hlt, -⟩ := hshort
    change (Name.encodeUtf8 value).length < 0x10000
    omega
  · rintro i entries ⟨_, -, hi⟩
    exact hi

theorem addsAt_constant {c : Constant} {b : ClassFileBuilder} (hfit : c.FitsIn b.entries) :
    AddsAt b (place (.other c)) fun i entries => (Entry.other c).indexIn 1 entries = some i :=
  addsAt_place hfit

theorem addsAt_placeRef (make : Nat → Constant) {index : Nat} {b : ClassFileBuilder}
    (hmake : index < 0x10000 → (make index).FitsIn b.entries) :
    AddsAt b (placeRef make index) fun i entries =>
      (Entry.other (make index)).indexIn 1 entries = some i := by
  have hshort : AddsAt b (shortField index) fun _ entries =>
      (Entry.other (make index)).FitsIn entries := by
    have hchecked {bytes : Bytes} (hbytes : unsignedField 2 (index : Int) = .ok bytes) :
        (Entry.other (make index)).FitsIn b.entries := by
      obtain ⟨k, hk, hlt, -⟩ := unsignedField_eq_ok.1 hbytes
      obtain rfl : index = k := Int.ofNat.inj hk
      exact hmake hlt
    unfold shortField
    generalize unsignedField 2 (index : Int) = checked at hchecked
    refine ⟨[], by simp, by simp; rfl, ?_⟩
    intro bytes hbytes later
    simpa using (hchecked hbytes).append later
  refine (hshort.bind fun _ b' hfit => addsAt_place hfit).mono ?_
  rintro i entries ⟨_, -, hi⟩
  exact hi

theorem adds_placePair (make : Nat → Nat → Constant)
    (hmake : ∀ entries i j, i < 0x10000 → j < 0x10000 → (make i j).FitsIn entries) (i j : Nat) :
    Adds (placePair make i j) fun k entries =>
      (Entry.other (make i j)).indexIn 1 entries = some k := by
  refine .mono (.bind (adds_shortField _) fun _ _ hi => .bind (adds_shortField _) fun _ _ hj b =>
    addsAt_constant (hmake b.entries i j ?_ ?_)) ?_
  · obtain ⟨k, hk, hlt, -⟩ := hi
    omega
  · obtain ⟨k, hk, hlt, -⟩ := hj
    omega
  · rintro k entries ⟨_, -, _, -, hk⟩
    exact hk

/-- A class is placed behind its name. -/
theorem adds_classRef (name : Text) :
    Adds (classRef name) fun i entries => ConstantRequest.classIndex entries name = some i := by
  intro b
  refine ((adds_utf8 name b).bind fun i b' hname => addsAt_placeRef .classRef fun hi =>
    ⟨hi, name, hname⟩).mono ?_
  rintro k entries ⟨i, hi, hk⟩
  simp only [ConstantRequest.classIndex, hi, Option.bind_eq_bind, Option.bind_some, hk]

theorem adds_classRefOrZero (name : Option Text) :
    Adds (classRefOrZero name) fun i entries =>
      ConstantRequest.classIndexOrZero entries name = some i := by
  match name with
  | none => exact .pure 0 fun _ => rfl
  | some [] => exact .pure 0 fun _ => rfl
  | some (c :: name) => exact adds_classRef (c :: name)

theorem adds_nameAndType (name descriptor : Text) :
    Adds (nameAndType name descriptor) fun i entries =>
      ConstantRequest.nameAndTypeIndex entries name descriptor = some i := by
  refine ((adds_utf8 name).bind fun i _ _ => (adds_utf8 descriptor).bind fun j _ _ =>
    adds_placePair .nameAndType (fun _ _ _ hi hj => ⟨hi, hj⟩) i j).mono ?_
  rintro k entries ⟨i, hi, j, hj, hk⟩
  simp only [ConstantRequest.nameAndTypeIndex, hi, hj, Option.bind_eq_bind, Option.bind_some, hk]

theorem adds_string (value : Text) :
    Adds (string value) fun i entries =>
      (ConstantRequest.string value).indexIn entries = some i := by
  refine ((adds_utf8 value).bind fun i _ _ b => addsAt_placeRef .string fun h => h).mono ?_
  rintro k entries ⟨i, hi, hk⟩
  simp only [ConstantRequest.indexIn, hi, Option.bind_eq_bind, Option.bind_some, hk]

/-- A number whose bytes are kept in a constant. -/
theorem adds_signed {size : Nat} (make : Bytes → Constant)
    (hmake : ∀ entries raw, raw.length = size → (make raw).FitsIn entries) (n : Int) :
    Adds (do place (.other (make (← signedField size n)))) fun i entries =>
      (do
        let raw ← (signedField size n).toOption
        (Entry.other (make raw)).indexIn 1 entries) = some i := by
  have hraw : Adds (liftM (signedField size n)) fun raw _ => signedField size n = .ok raw :=
    .lift _ fun _ h _ => h
  refine (hraw.bind fun raw _ h b =>
    addsAt_constant (hmake b.entries raw (signedField_length h))).mono ?_
  rintro i entries ⟨raw, hraw, hi⟩
  simp only [hraw, Except.toOption, Option.bind_eq_bind, Option.bind_some, hi]

theorem adds_memberRef (kind : MemberKind) (owner name descriptor : Text) :
    Adds (memberRef kind owner name descriptor) fun i entries =>
      (ConstantRequest.memberRef kind owner name descriptor).indexIn entries = some i := by
  refine ((adds_classRef owner).bind fun i _ _ => (adds_nameAndType name descriptor).bind
    fun j _ _ => adds_placePair (.memberRef kind) (fun _ _ _ hi hj => ⟨hi, hj⟩) i j).mono ?_
  rintro k entries ⟨i, hi, j, hj, hk⟩
  simp only [ConstantRequest.indexIn, hi, hj, Option.bind_eq_bind, Option.bind_some, hk]

theorem adds_invokeDynamic (name descriptor : Text) (bootstrap : Int) :
    Adds (invokeDynamic name descriptor bootstrap) fun i entries =>
      (ConstantRequest.invokeDynamic name descriptor bootstrap).indexIn entries = some i := by
  refine ((adds_nameAndType name descriptor).bind fun j _ _ => (adds_shortField bootstrap).bind
    fun _ _ _ =>
      adds_placePair .invokeDynamic (fun _ _ _ hi hj => ⟨hi, hj⟩) bootstrap.toNat j).mono ?_
  rintro k entries ⟨j, hj, _, ⟨i, rfl, hlt, -⟩, hk⟩
  rw [ConstantRequest.indexIn, hj, Option.bind_eq_bind, Option.bind_some, unsignedField_short hlt]
  exact hk

end ClassFileBuilder

/-- **The index that is answered is that of the constant**, in every list of entries from then
on. -/
theorem ConstantRequest.adds_place (r : ConstantRequest) :
    Building.Adds r.place fun i entries => r.indexIn entries = some i := by
  cases r with
  | utf8 value => exact ClassFileBuilder.adds_utf8 value
  | classRef name => exact ClassFileBuilder.adds_classRef name
  | string value => exact ClassFileBuilder.adds_string value
  | integer n => exact ClassFileBuilder.adds_signed .integer (fun _ _ h => h) n
  | long n => exact ClassFileBuilder.adds_signed .long (fun _ _ h => h) n
  | nameAndType name descriptor => exact ClassFileBuilder.adds_nameAndType name descriptor
  | memberRef kind owner name descriptor =>
      exact ClassFileBuilder.adds_memberRef kind owner name descriptor
  | invokeDynamic name descriptor bootstrap =>
      exact ClassFileBuilder.adds_invokeDynamic name descriptor bootstrap

end Unjar
