import Unjar.Proofs.Text

/-!
Segments of a name.

A dotted name, or one with slashes, is a sequence of segments.  Tests on names compare characters: a
name is equal to another, or begins with it and a separator behind it.  That is a test on segments:
those of the one name are the first of the other.  A piece of a segment is never taken for the whole,
as it would be without the separator.

Main results:

* `Unjar.cutAtLast_eq_some`, `Unjar.cutAtLast_append` — what stands before the last separator;
* `Unjar.splitOn_append_cons` — the segments around a separator;
* `Unjar.joinWith_splitOn`, `Unjar.splitOn_joinWith`, `Unjar.splitOn_inj` — a name is what its
  segments are;
* `Unjar.splitOn_prefix_iff` — **the first segments of a name**.
-/

set_option autoImplicit false

namespace Unjar

variable {α : Type} [BEq α] {sep : α} {l before after : List α}

/-! ### Segments put together -/

omit [BEq α] in
theorem joinWith_cons (sep piece : List α) {pieces : List (List α)} (h : pieces ≠ []) :
    joinWith sep (piece :: pieces) = piece ++ sep ++ joinWith sep pieces := by
  cases pieces with
  | nil => exact absurd rfl h
  | cons next pieces => rfl

omit [BEq α] in
theorem joinWith_append (sep : List α) {front back : List (List α)} (hfront : front ≠ [])
    (hback : back ≠ []) :
    joinWith sep (front ++ back) = joinWith sep front ++ sep ++ joinWith sep back := by
  induction front with
  | nil => exact absurd rfl hfront
  | cons piece front ih =>
      by_cases hempty : front = []
      · rw [hempty, List.singleton_append, joinWith_cons sep piece hback]
        rfl
      · rw [List.cons_append, joinWith_cons sep piece (by simp [hempty]), ih hempty,
          joinWith_cons sep piece hempty]
        simp only [List.append_assoc]

variable [LawfulBEq α]

/-! ### The last separator -/

/-- Behind the last separator there is none. -/
theorem cutAtLast_eq_some (h : cutAtLast sep l = some (before, after)) :
    l = before ++ sep :: after ∧ sep ∉ after := by
  obtain ⟨⟨behind, front⟩, hcut, heq⟩ := Option.map_eq_some_iff.mp h
  cases heq
  have hl := cutAtFirst_eq_some hcut
  have hbehind := not_mem_of_cutAtFirst hcut
  refine ⟨?_, by simpa using hbehind⟩
  rw [← List.reverse_reverse l, hl]
  simp

theorem cutAtLast_eq_none (h : cutAtLast sep l = none) : sep ∉ l := by
  have hcut := not_mem_of_cutAtFirst_eq_none (Option.map_eq_none_iff.mp h)
  simpa using hcut

theorem cutAtLast_append (before : List α) (h : sep ∉ after) :
    cutAtLast sep (before ++ sep :: after) = some (before, after) := by
  have hreverse : (before ++ sep :: after).reverse = after.reverse ++ sep :: before.reverse := by
    simp
  rw [cutAtLast, hreverse, cutAtFirst_append _ (by simpa using h)]
  simp

theorem cutAtLast_eq_none_iff : cutAtLast sep l = none ↔ sep ∉ l := by
  constructor
  · exact cutAtLast_eq_none
  · intro h
    cases hcut : cutAtLast sep l with
    | none => rfl
    | some parts =>
        rw [(cutAtLast_eq_some hcut).1] at h
        simp at h

/-! ### Segments -/

/-- The segments around a separator are those before it and those behind it. -/
theorem splitOn_append_cons (a l : List α) :
    splitOn sep (a ++ sep :: l) = splitOn sep a ++ splitOn sep l := by
  induction a with
  | nil => simp [splitOn]
  | cons c a ih =>
      rw [List.cons_append, splitOn, ih, splitOn]
      split
      · rfl
      · cases ha : splitOn sep a with
        | nil => exact absurd ha splitOn_ne_nil
        | cons first others => rfl

/-- A name is its segments put together. -/
theorem joinWith_splitOn (sep : α) (l : List α) : joinWith [sep] (splitOn sep l) = l := by
  induction l with
  | nil => rfl
  | cons c r ih =>
      rw [splitOn]
      split
      · next hc =>
        rw [joinWith_cons [sep] [] splitOn_ne_nil, ih, eq_of_beq hc]
        rfl
      · cases hr : splitOn sep r with
        | nil => exact absurd hr splitOn_ne_nil
        | cons first others =>
            rw [hr] at ih
            cases others with
            | nil => exact congrArg (c :: ·) ih
            | cons next others => exact congrArg (c :: ·) ih

/-- Segments that are put together are taken apart again. -/
theorem splitOn_joinWith {segments : List (List α)} (hne : segments ≠ [])
    (h : ∀ segment ∈ segments, sep ∉ segment) : splitOn sep (joinWith [sep] segments) = segments := by
  induction segments with
  | nil => exact absurd rfl hne
  | cons segment segments ih =>
      rw [List.forall_mem_cons] at h
      cases segments with
      | nil => exact splitOn_of_not_mem h.1
      | cons next more =>
          have hcons : joinWith [sep] (segment :: next :: more) =
              segment ++ sep :: joinWith [sep] (next :: more) := by
            rw [joinWith_cons [sep] segment (List.cons_ne_nil next more), List.append_assoc]
            rfl
          rw [hcons, splitOn_append_cons, splitOn_of_not_mem h.1,
            ih (List.cons_ne_nil next more) h.2]
          rfl

/-- Names with the same segments are equal. -/
theorem splitOn_inj {a : List α} : splitOn sep a = splitOn sep l ↔ a = l := by
  constructor
  · intro h
    rw [← joinWith_splitOn sep a, h, joinWith_splitOn]
  · rintro rfl
    rfl

/-- **The first segments of a name** are those of a name that it is equal to, or that it begins with
and goes on behind a separator. -/
theorem splitOn_prefix_iff {a : List α} :
    splitOn sep a <+: splitOn sep l ↔ l = a ∨ ∃ rest, l = a ++ sep :: rest := by
  constructor
  · rintro ⟨more, hmore⟩
    by_cases hempty : more = []
    · rw [hempty, List.append_nil, splitOn_inj] at hmore
      exact .inl hmore.symm
    · refine .inr ⟨joinWith [sep] more, ?_⟩
      rw [← joinWith_splitOn sep l, ← hmore, joinWith_append [sep] splitOn_ne_nil hempty,
        joinWith_splitOn, List.append_assoc, List.singleton_append]
  · rintro (rfl | ⟨rest, rfl⟩)
    · exact List.prefix_rfl
    · rw [splitOn_append_cons]
      exact List.prefix_append _ _

end Unjar
