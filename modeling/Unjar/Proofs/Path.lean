import Unjar.Path
import Unjar.Proofs.Text

/-!
Paths and the locations that they name.

A path that a text spells consists of names: components that are neither empty nor a single dot and
hold no slash.  The text of a name spells a path of one component, so that appending it appends the
name; and a path without pairs of dots names the location that its components spell out.

Main definitions:

* `Unjar.Path.IsName` — what a component of a path is like;
* `Unjar.Path.Proper` — paths all of whose components are names.

Main results:

* `Unjar.Path.proper_ofText` — the path that a text spells is proper;
* `Unjar.Path.isName_stem` — the stem of a file is a name, unless it is a single dot;
* `Unjar.Path.normalize_join`, `Unjar.Path.normalize_of_not_mem` — the location of a path.
-/

set_option autoImplicit false

namespace Unjar

namespace Path

/-! ### Names -/

/-- The name of a file or directory, or two dots. -/
structure IsName (t : Text) : Prop where
  nonempty : t ≠ []
  not_dot : t ≠ ['.']
  no_slash : '/' ∉ t

/-- A path of names. -/
def Proper (p : Path) : Prop := ∀ part ∈ p.parts, IsName part

theorem proper_ofText (t : Text) : (ofText t).Proper := by
  intro part h
  simp only [ofText, List.mem_filter, Bool.not_eq_true', Bool.or_eq_false_iff,
    List.isEmpty_eq_false_iff, beq_eq_false_iff_ne] at h
  exact ⟨h.2.1, h.2.2, not_mem_of_mem_splitOn h.1⟩

/-- A name spells a path of one component. -/
theorem ofText_of_isName {t : Text} (h : IsName t) : ofText t = ⟨0, [t]⟩ := by
  obtain ⟨c, r, rfl⟩ := List.exists_cons_of_ne_nil h.nonempty
  have hc : c ≠ '/' := fun he => h.no_slash (by simp [he])
  simp [ofText, splitOn_of_not_mem h.no_slash, hc, h.not_dot]

theorem joinText_of_isName (p : Path) {t : Text} (h : IsName t) :
    p.joinText t = ⟨p.root, p.parts ++ [t]⟩ := by
  simp [joinText, ofText_of_isName h, join]

/-- Appending names one after the other appends them all. -/
theorem foldl_joinText (p : Path) {names : List Text} (h : ∀ name ∈ names, IsName name) :
    names.foldl joinText p = ⟨p.root, p.parts ++ names⟩ := by
  induction names generalizing p with
  | nil => simp
  | cons name names ih =>
      rw [List.forall_mem_cons] at h
      rw [List.foldl_cons, joinText_of_isName p h.1, ih _ h.2]
      simp

theorem name_of_ne_nil {p : Path} (h : p.name ≠ []) : p.name ∈ p.parts := by
  unfold name at h ⊢
  cases hl : p.parts.getLast? with
  | none => simp [hl] at h
  | some last => exact List.mem_of_getLast? hl

/-- The stem of a file is a name, unless it is a single dot. -/
theorem isName_stem {p : Path} (hp : p.Proper) (hn : p.name ≠ []) (hd : p.stem ≠ ['.']) :
    IsName p.stem := by
  have hname : IsName p.name := hp _ (name_of_ne_nil hn)
  revert hd
  unfold stem splitName
  split
  · exact fun _ => hname
  · next front extension hcut =>
    split
    · exact fun _ => hname
    · next hne =>
      intro hd
      obtain ⟨hfront, -⟩ : front ≠ [] ∧ extension ≠ [] := by simpa using hne
      refine ⟨hfront, hd, fun hslash => hname.no_slash ?_⟩
      simp only [cutAtLast, Option.map_eq_some_iff, Prod.mk.injEq, Prod.exists] at hcut
      obtain ⟨after, before, hcut, rfl, rfl⟩ := hcut
      have := mem_of_cutAtFirst hcut '/' (.inr (by simpa using hslash))
      simpa using this

/-! ### Locations -/

/-- A path behind another is followed from where that one leads. -/
theorem normalize_join (here : Location) (p q : Path) :
    normalize here (p.join q) = normalize (normalize here p) q := by
  by_cases h : q.root = 0
  · simp [normalize, join, h, List.foldl_append]
  · simp [normalize, join, h]

theorem foldl_step {parts : List Text} (h : up ∉ parts) (here : Location) :
    parts.foldl step here = here ++ parts := by
  induction parts generalizing here with
  | nil => simp
  | cons part parts ih =>
      rw [List.mem_cons, not_or] at h
      obtain ⟨hp, hr⟩ := h
      have : step here part = here ++ [part] := by
        unfold step
        rw [if_neg (by simpa using Ne.symm hp)]
      rw [List.foldl_cons, this, ih hr]
      simp

theorem normalize_of_not_mem (here : Location) {p : Path} (h : up ∉ p.parts) :
    normalize here p = (if p.root = 0 then here else []) ++ p.parts :=
  foldl_step h _

/-- The location of a path is spelled without pairs of dots. -/
theorem up_not_mem_normalize {here : Location} (h : up ∉ here) (p : Path) :
    up ∉ normalize here p := by
  unfold normalize
  have hstart : up ∉ (if p.root = 0 then here else []) := by
    split
    · exact h
    · exact List.not_mem_nil
  generalize (if p.root = 0 then here else []) = start at hstart
  induction p.parts generalizing start with
  | nil => exact hstart
  | cons part parts ih =>
      refine ih _ ?_
      unfold step
      split
      · exact fun hmem => hstart (List.dropLast_subset _ hmem)
      · next hpart =>
        rw [List.mem_append, not_or, List.mem_singleton]
        exact ⟨hstart, fun he => hpart (by simp [← he])⟩

/-- The location of a path of names consists of names. -/
theorem Proper.isName_of_mem_normalize {here : Location} {p : Path} (hp : p.Proper)
    (h : ∀ name ∈ here, IsName name) : ∀ name ∈ normalize here p, IsName name := by
  unfold normalize
  have hstart : ∀ name ∈ if p.root = 0 then here else [], IsName name := by
    split
    · exact h
    · exact List.forall_mem_nil _
  generalize (if p.root = 0 then here else []) = start at hstart
  unfold Proper at hp
  generalize p.parts = parts at hp
  induction parts generalizing start with
  | nil => exact hstart
  | cons part parts ih =>
      rw [List.forall_mem_cons] at hp
      refine ih _ ?_ hp.2
      unfold step
      split
      · exact fun name hname => hstart name (List.dropLast_subset _ hname)
      · rw [List.forall_mem_append, List.forall_mem_singleton]
        exact ⟨hstart, hp.1⟩

theorem normalize_joinText (here : Location) (p : Path) {name : Text} (h : IsName name)
    (hup : name ≠ up) : normalize here (p.joinText name) = normalize here p ++ [name] := by
  rw [joinText, ofText_of_isName h, normalize_join, normalize_of_not_mem, if_pos rfl]
  simpa using hup.symm

theorem isBeneath_iff {inner outer : Location} :
    isBeneath inner outer = true ↔ ∃ rest, rest ≠ [] ∧ inner = outer ++ rest := by
  simp only [isBeneath, Bool.and_eq_true, List.isPrefixOf_iff_prefix, bne_iff_ne]
  constructor
  · rintro ⟨⟨rest, rfl⟩, hne⟩
    exact ⟨rest, fun h => hne (by simp [h]), rfl⟩
  · rintro ⟨rest, hne, rfl⟩
    exact ⟨⟨rest, rfl⟩, by simpa using hne⟩

theorem isBeneath_of_append {inner outer between : Location}
    (h : isBeneath inner (outer ++ between) = true) : isBeneath inner outer = true := by
  obtain ⟨rest, hne, rfl⟩ := isBeneath_iff.mp h
  refine isBeneath_iff.mpr ⟨between ++ rest, ?_, List.append_assoc ..⟩
  exact List.append_ne_nil_of_right_ne_nil _ hne

end Path

end Unjar
