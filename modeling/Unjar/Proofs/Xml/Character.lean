import Mathlib.Tactic.Tauto
import Unjar.Proofs.Text
import Unjar.Xml.Character

/-!
Names and the characters of documents.

A name consists of characters that a document may hold, none of which means anything in markup; so a
name ends where the markup goes on.

Main definitions:

* `Unjar.Xml.IsContent` — texts of characters that a document may hold;
* `Unjar.Xml.EndsName` — texts in front of which a name ends.

Main results:

* `Unjar.Xml.isCharacter_of_isNameCharacter` — names may stand in documents;
* `Unjar.Xml.isQualifiedName_iff` — names with and without a prefix;
* `Unjar.Xml.takeWhile_qualified`, `Unjar.Xml.dropWhile_qualified` — where a name ends.
-/

set_option autoImplicit false

namespace Unjar.Xml

/-! ### Characters -/

/-- **A text that a document may hold.** -/
def IsContent (t : Text) : Prop := ∀ c ∈ t, isCharacter c = true

section

variable {c : Char} {t r : Text}

@[simp] theorem isContent_nil : IsContent [] := fun _ h => absurd h List.not_mem_nil

@[simp] theorem isContent_cons : IsContent (c :: t) ↔ isCharacter c = true ∧ IsContent t :=
  List.forall_mem_cons

@[simp] theorem isContent_append : IsContent (t ++ r) ↔ IsContent t ∧ IsContent r :=
  List.forall_mem_append

theorem isContent_iff_all : IsContent t ↔ t.all isCharacter = true := List.all_eq_true.symm

instance : Decidable (IsContent t) := decidable_of_iff _ isContent_iff_all.symm

theorem IsContent.subset (h : IsContent t) (hr : r ⊆ t) : IsContent r := fun _ hc => h _ (hr hc)

theorem IsContent.dropSpaces (h : IsContent t) : IsContent (dropSpaces t) :=
  h.subset (List.dropWhile_sublist _).subset

theorem IsContent.unifyLineEnds (h : IsContent t) : IsContent (Text.unifyLineEnds t) := by
  intro c hc
  rcases Text.mem_unifyLineEnds hc with hc | rfl
  · exact h c hc
  · rfl

theorem le_of_inSomeRun {runs : List (Nat × Nat)} {last n : Nat}
    (hruns : ∀ run ∈ runs, run.2 ≤ last) (h : inSomeRun runs n = true) : n ≤ last := by
  obtain ⟨run, hrun, hn⟩ := List.any_eq_true.mp h
  simp only [Bool.and_eq_true, decide_eq_true_eq] at hn
  exact Nat.le_trans hn.2 (hruns run hrun)

/-! ### Characters of names -/

theorem toNat_of_isAlphanum (h : c.isAlphanum = true) : 0x30 ≤ c.toNat ∧ c.toNat ≤ 0x7A := by
  rw [Char.isAlphanum, Bool.or_eq_true, Text.isAlpha_iff, Text.isDigit_iff] at h
  rcases h with (⟨hfirst, hlast⟩ | ⟨hfirst, hlast⟩) | ⟨hfirst, hlast⟩
  all_goals exact ⟨Nat.le_trans (by decide) hfirst, Nat.le_trans hlast (by decide)⟩

/-- The characters of names lie between the hyphen and the last letter. -/
theorem toNat_of_isNameCharacter (h : isNameCharacter c = true) :
    0x2D ≤ c.toNat ∧ c.toNat ≤ 0xD7A3 := by
  simp only [isNameCharacter, Bool.or_eq_true, Bool.and_eq_true, decide_eq_true_eq, beq_iff_eq]
    at h
  rcases h with (((h | rfl) | rfl) | rfl) | ⟨h, hletter | hmark⟩
  · have := toNat_of_isAlphanum h
    omega
  · decide
  · decide
  · decide
  · exact ⟨by omega, le_of_inSomeRun (by decide +kernel) hletter⟩
  · exact ⟨by omega, le_of_inSomeRun (by decide +kernel) hmark⟩

/-- **Names may stand in documents.** -/
theorem isCharacter_of_isNameCharacter (h : isNameCharacter c = true) : isCharacter c = true := by
  have hc := toNat_of_isNameCharacter h
  simp only [isCharacter, Bool.or_eq_true, beq_iff_eq, Bool.and_eq_true, decide_eq_true_eq,
    bne_iff_ne]
  omega

theorem isNameCharacter_of_isNameStart (h : isNameStart c = true) : isNameCharacter c = true := by
  simp only [isNameStart, Bool.or_eq_true, Bool.and_eq_true, beq_iff_eq] at h
  simp only [isNameCharacter, Char.isAlphanum, Bool.or_eq_true, Bool.and_eq_true, beq_iff_eq]
  tauto

theorem isQualifiedCharacter_of_isNameCharacter (h : isNameCharacter c = true) :
    isQualifiedCharacter c = true := by
  simp [isQualifiedCharacter, h]

theorem toNat_of_isQualifiedCharacter (h : isQualifiedCharacter c = true) : 0x2D ≤ c.toNat := by
  simp only [isQualifiedCharacter, Bool.or_eq_true, beq_iff_eq] at h
  rcases h with rfl | h
  · decide
  · exact (toNat_of_isNameCharacter h).1

theorem isSpace_of_isQualifiedCharacter (h : isQualifiedCharacter c = true) :
    isSpace c = false := by
  have hc := toNat_of_isQualifiedCharacter h
  simp only [isSpace, Bool.or_eq_false_iff, beq_eq_false_iff_ne]
  refine ⟨⟨⟨?_, ?_⟩, ?_⟩, ?_⟩ <;> rintro rfl <;> revert hc <;> decide

/-! ### Names -/

theorem isName_iff : isName t = true ↔
    (∃ c, t.head? = some c ∧ isNameStart c = true) ∧ ∀ c ∈ t, isNameCharacter c = true := by
  cases t with
  | nil => simp [isName]
  | cons c r =>
      simp only [isName, Bool.and_eq_true, List.all_eq_true, List.head?_cons, Option.some.injEq,
        exists_eq_left', List.forall_mem_cons]
      constructor
      · rintro ⟨hc, hr⟩
        exact ⟨hc, isNameCharacter_of_isNameStart hc, hr⟩
      · rintro ⟨hc, -, hr⟩
        exact ⟨hc, hr⟩

theorem not_mem_of_isName (h : isName t = true) (hc : isNameCharacter c = false) : c ∉ t := by
  intro hmem
  rw [(isName_iff.mp h).2 c hmem] at hc
  cases hc

theorem IsContent.of_isName (h : isName t = true) : IsContent t :=
  fun c hc => isCharacter_of_isNameCharacter ((isName_iff.mp h).2 c hc)

/-- What is known of names with and without a prefix: how they begin, and of what they consist. -/
theorem isQualifiedName_iff : isQualifiedName t = true ↔
    isName t = true ∨ ∃ p n, t = p ++ ':' :: n ∧ isName p = true ∧ isName n = true := by
  unfold isQualifiedName
  split
  · next hcut =>
    constructor
    · exact .inl
    · rintro (h | ⟨p, n, rfl, -, -⟩)
      · exact h
      · exact absurd (List.mem_append_cons_self) (not_mem_of_cutAtFirst_eq_none hcut)
  · next p n hcut =>
    rw [Bool.and_eq_true]
    constructor
    · rintro ⟨hp, hn⟩
      exact .inr ⟨p, n, cutAtFirst_eq_some hcut, hp, hn⟩
    · rintro (h | ⟨p', n', rfl, hp, hn⟩)
      · refine absurd ?_ (not_mem_of_isName h (show isNameCharacter ':' = false by decide))
        rw [cutAtFirst_eq_some hcut]
        exact List.mem_append_cons_self
      · rw [cutAtFirst_append n' (not_mem_of_isName hp (by decide))] at hcut
        cases hcut
        exact ⟨hp, hn⟩

theorem head?_of_isQualifiedName (h : isQualifiedName t = true) :
    ∃ c, t.head? = some c ∧ isNameStart c = true := by
  rcases isQualifiedName_iff.mp h with h | ⟨p, n, rfl, hp, -⟩
  · exact (isName_iff.mp h).1
  · obtain ⟨c, hc, hstart⟩ := (isName_iff.mp hp).1
    exact ⟨c, by simp [List.head?_append, hc], hstart⟩

theorem isQualifiedCharacter_of_isQualifiedName (h : isQualifiedName t = true) :
    ∀ c ∈ t, isQualifiedCharacter c = true := by
  rcases isQualifiedName_iff.mp h with h | ⟨p, n, rfl, hp, hn⟩
  · exact fun c hc => isQualifiedCharacter_of_isNameCharacter ((isName_iff.mp h).2 c hc)
  · rw [List.forall_mem_append, List.forall_mem_cons]
    refine ⟨fun c hc => ?_, rfl, fun c hc => ?_⟩
    · exact isQualifiedCharacter_of_isNameCharacter ((isName_iff.mp hp).2 c hc)
    · exact isQualifiedCharacter_of_isNameCharacter ((isName_iff.mp hn).2 c hc)

theorem IsContent.of_isQualifiedName (h : isQualifiedName t = true) : IsContent t := by
  rcases isQualifiedName_iff.mp h with h | ⟨p, n, rfl, hp, hn⟩
  · exact .of_isName h
  · rw [isContent_append, isContent_cons]
    exact ⟨.of_isName hp, rfl, .of_isName hn⟩

/-! ### Where a name ends -/

/-- A text does not go on with a name. -/
def EndsName (r : Text) : Prop := ∀ c, r.head? = some c → isQualifiedCharacter c = false

theorem takeWhile_qualified (h : isQualifiedName t = true) (hr : EndsName r) :
    (t ++ r).takeWhile isQualifiedCharacter = t := by
  rw [List.takeWhile_append_of_pos (isQualifiedCharacter_of_isQualifiedName h)]
  cases r with
  | nil => simp
  | cons c r => simp [hr c rfl]

theorem dropWhile_qualified (h : isQualifiedName t = true) (hr : EndsName r) :
    (t ++ r).dropWhile isQualifiedCharacter = r := by
  rw [List.dropWhile_append_of_pos (isQualifiedCharacter_of_isQualifiedName h)]
  cases r with
  | nil => rfl
  | cons c r => simp [hr c rfl]

end

end Unjar.Xml
