import Mathlib.Data.List.Forall2
import Unjar.Text

/-!
Pieces of a text.

Texts are taken apart at separators, at patterns and behind beginnings, and what is found there is
what was put together.  The line ends of a text can be unified piece by piece, unless a piece begins
with a line feed that may belong to the end of a line before it.

Main results:

* `Unjar.cutAtFirst_append`, `Unjar.cutAtPattern_append`, `Unjar.dropPrefix?_eq_some` — what is cut;
* `Unjar.splitOn_of_not_mem`, `Unjar.not_mem_of_mem_splitOn` — pieces between a separator;
* `Unjar.forall₂_of_mapM` — a list each of whose members is taken over;
* `Unjar.Text.unifyLineEnds_append` — line ends unified piece by piece.
-/

set_option autoImplicit false

namespace Unjar

section Pieces

variable {α : Type} [BEq α] {sep : α} {l : List α}

theorem mem_of_cutAtFirst {before after : List α} (h : cutAtFirst sep l = some (before, after)) :
    ∀ c, c ∈ before ∨ c ∈ after → c ∈ l := by
  induction l generalizing before with
  | nil => simp [cutAtFirst] at h
  | cons d r ih =>
      unfold cutAtFirst at h
      split at h
      · simp only [Option.some.injEq, Prod.mk.injEq] at h
        obtain ⟨rfl, rfl⟩ := h
        intro c hc
        simpa using .inr (by simpa using hc)
      · simp only [Option.map_eq_some_iff, Prod.mk.injEq, Prod.exists] at h
        obtain ⟨b, a, hba, rfl, rfl⟩ := h
        intro c hc
        rcases hc with hc | hc
        · rcases List.mem_cons.mp hc with rfl | hc
          · exact List.mem_cons_self
          · exact List.mem_cons_of_mem _ (ih hba c (.inl hc))
        · exact List.mem_cons_of_mem _ (ih hba c (.inr hc))

theorem splitOn_ne_nil : splitOn sep l ≠ [] := by
  cases l with
  | nil => exact List.cons_ne_nil _ _
  | cons c r =>
      unfold splitOn
      split
      · exact List.cons_ne_nil _ _
      · split <;> exact List.cons_ne_nil _ _

variable [LawfulBEq α]

/-! ### Cutting at a separator -/

theorem cutAtFirst_append {before : List α} (after : List α) (h : sep ∉ before) :
    cutAtFirst sep (before ++ sep :: after) = some (before, after) := by
  induction before with
  | nil => simp [cutAtFirst]
  | cons c before ih =>
      rw [List.mem_cons, not_or] at h
      obtain ⟨hc, hbefore⟩ := h
      have hne : ¬(c == sep) = true := fun heq => hc (eq_of_beq heq).symm
      rw [List.cons_append, cutAtFirst, if_neg hne, ih hbefore]
      rfl

theorem cutAtFirst_eq_none (h : sep ∉ l) : cutAtFirst sep l = none := by
  induction l with
  | nil => rfl
  | cons c r ih =>
      rw [List.mem_cons, not_or] at h
      have hne : ¬(c == sep) = true := fun heq => h.1 (eq_of_beq heq).symm
      rw [cutAtFirst, if_neg hne, ih h.2]
      rfl

theorem not_mem_of_cutAtFirst {l before after : List α}
    (h : cutAtFirst sep l = some (before, after)) : sep ∉ before := by
  induction l generalizing before with
  | nil => cases h
  | cons c r ih =>
      unfold cutAtFirst at h
      split at h
      · cases h
        exact List.not_mem_nil
      · next hc =>
        obtain ⟨⟨before', after'⟩, hcut, heq⟩ := Option.map_eq_some_iff.1 h
        cases heq
        rw [List.mem_cons, not_or]
        refine ⟨?_, ih hcut⟩
        rintro rfl
        exact hc (beq_self_eq_true sep)

theorem not_mem_of_cutAtFirst_eq_none (h : cutAtFirst sep l = none) : sep ∉ l := by
  intro hmem
  obtain ⟨before, after, rfl, hbefore⟩ := List.eq_append_cons_of_mem hmem
  rw [cutAtFirst_append after hbefore] at h
  cases h

/-! ### Cutting at a pattern and behind a beginning -/

theorem dropPrefix?_eq_some {start rest : List α} (h : dropPrefix? start l = some rest) :
    l = start ++ rest := by
  unfold dropPrefix? at h
  split at h
  · next hstart =>
    obtain ⟨rest', rfl⟩ := List.isPrefixOf_iff_prefix.mp hstart
    simp only [List.drop_left, Option.some.injEq] at h
    rw [h]
  · cases h

theorem dropPrefix?_append (start rest : List α) :
    dropPrefix? start (start ++ rest) = some rest := by
  have hstart : start.isPrefixOf (start ++ rest) = true :=
    List.isPrefixOf_iff_prefix.mpr (List.prefix_append _ _)
  rw [dropPrefix?, if_pos hstart, List.drop_left]

theorem cutAtPattern_eq_some {pattern before after : List α}
    (h : cutAtPattern pattern l = some (before, after)) : l = before ++ pattern ++ after := by
  induction l generalizing before with
  | nil =>
      simp only [cutAtPattern, Option.ite_none_right_eq_some, Option.some.injEq, Prod.mk.injEq] at h
      obtain ⟨hpattern, rfl, rfl⟩ := h
      simpa using hpattern
  | cons c r ih =>
      unfold cutAtPattern at h
      split at h
      · next rest hrest =>
        cases h
        rw [List.nil_append, dropPrefix?_eq_some hrest]
      · obtain ⟨⟨before', after'⟩, hcut, heq⟩ := Option.map_eq_some_iff.mp h
        cases heq
        rw [ih hcut]
        rfl

/-- A pattern is found where it first occurs: in what is in front of it there is none, not even one
that ends with a beginning of it. -/
theorem cutAtPattern_append {pattern before : List α} (after : List α)
    (h : ¬pattern <:+: before ++ pattern.dropLast) :
    cutAtPattern pattern (before ++ (pattern ++ after)) = some (before, after) := by
  cases pattern with
  | nil => exact absurd List.nil_infix h
  | cons p pattern =>
      induction before with
      | nil =>
          have hdrop := dropPrefix?_append (p :: pattern) after
          rw [List.nil_append, List.cons_append, cutAtPattern]
          rw [List.cons_append] at hdrop
          rw [hdrop]
      | cons c before ih =>
          have hbehind : ¬(p :: pattern) <:+: before ++ (p :: pattern).dropLast :=
            fun hinside => h (hinside.trans (List.suffix_cons c _).isInfix)
          have hnone : dropPrefix? (p :: pattern) (c :: (before ++ (p :: pattern ++ after))) =
              none := by
            rw [dropPrefix?, if_neg]
            intro hstart
            -- the pattern would end in front of its own last element
            have hfull : (c :: before) ++ (p :: pattern).dropLast <+:
                c :: (before ++ (p :: pattern ++ after)) := by
              refine List.prefix_append_right_inj (c :: before) |>.mpr ?_
              exact (List.dropLast_prefix _).trans (List.prefix_append _ _)
            refine h (List.IsPrefix.isInfix (List.prefix_of_prefix_length_le
              (List.isPrefixOf_iff_prefix.mp hstart) hfull ?_))
            simp
          rw [List.cons_append, cutAtPattern, hnone, ih hbehind]
          rfl

theorem dropPrefix?_eq_none {pattern : List α} {c : α} (hpattern : c ∈ pattern) (hl : c ∉ l) :
    dropPrefix? pattern l = none := by
  cases h : dropPrefix? pattern l with
  | none => rfl
  | some rest =>
      refine absurd ?_ hl
      rw [dropPrefix?_eq_some h]
      exact List.mem_append_left rest hpattern

theorem afterFirst?_eq_none {pattern : List α} {c : α} (hpattern : c ∈ pattern) (hl : c ∉ l) :
    afterFirst? pattern l = none := by
  induction l with
  | nil =>
      rw [afterFirst?, if_neg]
      rintro hnil
      rw [List.isEmpty_iff.mp hnil] at hpattern
      cases hpattern
  | cons d l ih =>
      rw [afterFirst?, dropPrefix?_eq_none hpattern hl, Option.none_or]
      exact ih fun h => hl (List.mem_cons_of_mem _ h)

/-! ### Splitting at a separator -/

theorem splitOn_of_not_mem (h : sep ∉ l) : splitOn sep l = [l] := by
  induction l with
  | nil => rfl
  | cons c r ih =>
      rw [List.mem_cons, not_or] at h
      obtain ⟨hc, hr⟩ := h
      simp [splitOn, Ne.symm hc, ih hr]

theorem not_mem_of_mem_splitOn {piece : List α} (h : piece ∈ splitOn sep l) : sep ∉ piece := by
  induction l generalizing piece with
  | nil =>
      rw [splitOn, List.mem_singleton] at h
      simp [h]
  | cons c r ih =>
      unfold splitOn at h
      split at h
      · rcases List.mem_cons.mp h with rfl | h
        · exact List.not_mem_nil
        · exact ih h
      · next hc =>
        have hne : sep ≠ c := fun he => hc (by simp [he])
        split at h
        · rw [List.mem_singleton] at h
          simpa [h] using hne
        · next first pieces hs =>
          rcases List.mem_cons.mp h with rfl | h
          · have : sep ∉ first := ih (by simp [hs])
            simp [hne, this]
          · exact ih (by simp [hs, h])

theorem splitOn_append {a first : List α} {others : List (List α)} (h : sep ∉ a)
    (hl : splitOn sep l = first :: others) : splitOn sep (a ++ l) = (a ++ first) :: others := by
  induction a with
  | nil => exact hl
  | cons c a ih =>
      rw [List.mem_cons, not_or] at h
      have hne : ¬(c == sep) = true := fun heq => h.1 (eq_of_beq heq).symm
      rw [List.cons_append, splitOn, if_neg hne, ih h.2]
      rfl

omit [LawfulBEq α] in
theorem subset_of_mem_splitOn {piece : List α} (h : piece ∈ splitOn sep l) : piece ⊆ l := by
  induction l generalizing piece with
  | nil =>
      rw [splitOn, List.mem_singleton] at h
      simp [h]
  | cons c r ih =>
      unfold splitOn at h
      split at h
      · rcases List.mem_cons.mp h with rfl | h
        · exact List.nil_subset _
        · exact List.subset_cons_of_subset _ (ih h)
      · split at h
        · next hs => exact absurd hs splitOn_ne_nil
        · next first pieces hs =>
          rcases List.mem_cons.mp h with rfl | h
          · exact List.cons_subset_cons _ (ih (by simp [hs]))
          · exact List.subset_cons_of_subset _ (ih (by simp [hs, h]))

end Pieces

/-! ### Lists taken over one by one -/

theorem forall₂_of_mapM {α β : Type} {f : α → Option β} {l : List α} {found : List β}
    (h : l.mapM f = some found) : List.Forall₂ (fun a b => f a = some b) l found := by
  induction l generalizing found with
  | nil =>
      cases h
      exact .nil
  | cons a l ih =>
      simp only [List.mapM_cons, Option.bind_eq_bind, Option.bind_eq_some_iff, Option.pure_def,
        Option.some.injEq] at h
      obtain ⟨b, hb, more, hmore, rfl⟩ := h
      exact .cons hb (ih hmore)

theorem exists_of_forall₂ {α β : Type} {R : α → β → Prop} {l : List α} {l' : List β} {b : β}
    (h : List.Forall₂ R l l') (hb : b ∈ l') : ∃ a ∈ l, R a b := by
  induction h with
  | nil => cases hb
  | cons hab _ ih =>
      rcases List.mem_cons.mp hb with rfl | hb
      · exact ⟨_, List.mem_cons_self, hab⟩
      · obtain ⟨a, ha, hab⟩ := ih hb
        exact ⟨a, List.mem_cons_of_mem _ ha, hab⟩

/-- Two lists that correspond still do when corresponding elements are picked. -/
theorem forall₂_filter {α β : Type} {R : α → β → Prop} {p : α → Bool} {q : β → Bool} {l : List α}
    {l' : List β} (h : List.Forall₂ R l l') (hpick : ∀ a ∈ l, ∀ b, R a b → p a = q b) :
    List.Forall₂ R (l.filter p) (l'.filter q) := by
  induction h with
  | nil => exact .nil
  | @cons a b l l' hab _ ih =>
      rw [List.forall_mem_cons] at hpick
      rw [List.filter_cons, List.filter_cons, hpick.1 b hab]
      split
      · exact .cons hab (ih hpick.2)
      · exact ih hpick.2

/-- Lists that correspond do so place by place. -/
theorem exists_getElem?_of_forall₂ {α β : Type} {R : α → β → Prop} {l : List α} {l' : List β}
    {i : Nat} {a : α} (h : List.Forall₂ R l l') (ha : l[i]? = some a) :
    ∃ b, l'[i]? = some b ∧ R a b := by
  induction h generalizing i with
  | nil => cases ha
  | @cons first first' l l' hfirst _ ih =>
      cases i with
      | zero =>
          cases ha
          exact ⟨first', rfl, hfirst⟩
      | succ i => exact ih ha

theorem exists_of_mem_mapM {α β : Type} {f : α → Option β} {l : List α} {found : List β} {b : β}
    (h : l.mapM f = some found) (hb : b ∈ found) : ∃ a ∈ l, f a = some b :=
  exists_of_forall₂ (R := fun a b => f a = some b) (forall₂_of_mapM h) hb

theorem mem_of_lookup_eq_some {α β : Type} [BEq α] [LawfulBEq α] {entries : List (α × β)} {a : α}
    {b : β} (h : entries.lookup a = some b) : (a, b) ∈ entries := by
  obtain ⟨before, after, rfl, -⟩ := List.lookup_eq_some_iff.mp h
  exact List.mem_append_cons_self

/-- Where each key occurs once, every entry is looked up. -/
theorem lookup_eq_some_of_mem {α β : Type} [BEq α] [LawfulBEq α] {entries : List (α × β)} {a : α}
    {b : β} (hkeys : (entries.map Prod.fst).Nodup) (h : (a, b) ∈ entries) :
    entries.lookup a = some b := by
  induction entries with
  | nil => cases h
  | cons entry entries ih =>
      rw [List.map_cons, List.nodup_cons] at hkeys
      rcases List.mem_cons.mp h with rfl | h
      · exact List.lookup_cons_self
      · have hne : (a == entry.1) = false := by
          rw [beq_eq_false_iff_ne]
          rintro rfl
          exact hkeys.1 (List.mem_map.mpr ⟨_, h, rfl⟩)
        rw [List.lookup_cons, hne]
        exact ih hkeys.2 h

theorem mapM_eq_some_map {α β : Type} {f : α → Option β} {g : α → β} {l : List α}
    (h : ∀ a ∈ l, f a = some (g a)) : l.mapM f = some (l.map g) := by
  induction l with
  | nil => rfl
  | cons a l ih =>
      rw [List.forall_mem_cons] at h
      rw [List.mapM_cons, h.1, ih h.2]
      rfl

namespace Text

/-! ### Letters and digits -/

theorem isAlpha_iff {c : Char} : c.isAlpha = true ↔ 'A' ≤ c ∧ c ≤ 'Z' ∨ 'a' ≤ c ∧ c ≤ 'z' :=
  Bool.or_eq_true_iff.trans (or_congr decide_eq_true_iff
    (Bool.and_eq_true_iff.trans (and_congr decide_eq_true_iff decide_eq_true_iff)))

theorem isDigit_iff {c : Char} : c.isDigit = true ↔ '0' ≤ c ∧ c ≤ '9' :=
  Bool.and_eq_true_iff.trans (and_congr decide_eq_true_iff decide_eq_true_iff)

theorem ofNat_injective {m n : Nat} (h : ofNat m = ofNat n) : m = n := by
  have hdigits := congrArg (fun digits => Nat.ofDigitChars 10 digits 0) h
  simpa [ofNat, Nat.ofDigitChars_toDigits] using hdigits

/-! ### Line ends -/

theorem unifyLineEnds_cons {c : Char} (hc : c ≠ '\r') (r : Text) :
    unifyLineEnds (c :: r) = c :: unifyLineEnds r := by
  rw [unifyLineEnds, if_neg (by simpa using hc)]
  exact fun _ h _ => hc h

theorem unifyLineEnds_append_of_not_mem {a : Text} (h : '\r' ∉ a) (b : Text) :
    unifyLineEnds (a ++ b) = a ++ unifyLineEnds b := by
  induction a with
  | nil => rfl
  | cons c a ih =>
      rw [List.mem_cons, not_or] at h
      rw [List.cons_append, unifyLineEnds_cons (Ne.symm h.1), ih h.2]
      rfl

theorem unifyLineEnds_of_not_mem {t : Text} (h : '\r' ∉ t) : unifyLineEnds t = t := by
  have happend := unifyLineEnds_append_of_not_mem h []
  simpa [unifyLineEnds] using happend

theorem unifyLineEnds_append {a b : Text} (h : b.head? ≠ some '\n') :
    unifyLineEnds (a ++ b) = unifyLineEnds a ++ unifyLineEnds b := by
  fun_induction unifyLineEnds a with
  | case1 => rfl
  | case2 r ih =>
      rw [List.cons_append, List.cons_append, unifyLineEnds, ih]
      rfl
  | case3 c r hpair ih =>
      rw [List.cons_append, List.cons_append, unifyLineEnds, ih]
      rintro r' rfl hr
      cases r with
      | nil =>
          rw [List.nil_append] at hr
          rw [hr] at h
          exact h rfl
      | cons d r =>
          rw [List.cons_append, List.cons.injEq] at hr
          exact hpair r rfl (by rw [hr.1])

@[simp] theorem isEmpty_unifyLineEnds (t : Text) : (unifyLineEnds t).isEmpty = t.isEmpty := by
  fun_cases unifyLineEnds t <;> rfl

theorem mem_unifyLineEnds {t : Text} {c : Char} (h : c ∈ unifyLineEnds t) : c ∈ t ∨ c = '\n' := by
  fun_induction unifyLineEnds t with
  | case1 => exact .inl h
  | case2 r ih =>
      rcases List.mem_cons.mp h with rfl | h
      · exact .inr rfl
      · rcases ih h with h | h
        · exact .inl (by simp [h])
        · exact .inr h
  | case3 d r hpair ih =>
      rcases List.mem_cons.mp h with rfl | h
      · by_cases hd : d = '\r'
        · exact .inr (by simp [hd])
        · exact .inl (by simp [hd])
      · rcases ih h with h | h
        · exact .inl (List.mem_cons_of_mem _ h)
        · exact .inr h

/-! ### Blanks -/

@[simp] theorem isAllBlank_unifyLineEnds (t : Text) :
    isAllBlank (unifyLineEnds t) = isAllBlank t := by
  fun_induction unifyLineEnds t with
  | case1 => rfl
  | case2 r ih => exact ih
  | case3 c r _ ih =>
      rw [isAllBlank, List.all_cons]
      change (isBlank _ && isAllBlank (unifyLineEnds r)) = (isBlank c && isAllBlank r)
      rw [ih]
      by_cases hc : c = '\r'
      · subst hc
        rfl
      · rw [if_neg (by simpa using hc)]

theorem strip_of_isAllBlank {t : Text} (h : isAllBlank t = true) : strip t = [] := by
  induction t with
  | nil => rfl
  | cons c t ih =>
      rw [isAllBlank, List.all_cons, Bool.and_eq_true] at h
      rw [strip, stripStart, List.dropWhile_cons_of_pos h.1]
      exact ih h.2

end Text

end Unjar
