import Mathlib.Data.Fintype.EquivFin
import Mathlib.Data.Fintype.Sets
import Mathlib.Logic.Relation
import Unjar.Proofs.Pom.Placeholder

/-!
Expanding placeholders in full.

Placeholders are replaced again and again until nothing changes.  What comes of a text depends only
on the names that are met on the way, and it does not matter whether the first round has been made
before.  If properties refer to one another without cycles, and every dollar sign begins a
placeholder, then there is an end.

Main definitions:

* `Unjar.Properties.Expands` — **a text expanded in full**;
* `Unjar.Properties.IsTemplate` — texts in which every dollar sign begins a placeholder;
* `Unjar.Properties.Refers`, `Unjar.Properties.IsAcyclic` — properties that refer to one another.

Main results:

* `Unjar.Properties.Expands.unique`, `Unjar.Properties.expands_substitute` — there is at most one
  expansion, which replacing placeholders does not change;
* `Unjar.Properties.expands_congr` — **what expanding depends on**;
* `Unjar.Properties.exists_expands` — **without cycles there is an expansion**.
-/

set_option autoImplicit false

namespace Unjar.Properties

/-- **A text expanded in full**: its placeholders are replaced until nothing changes. -/
def Expands (p : Properties) (t expanded : Text) : Prop :=
  (∃ n, p.substitute^[n] t = expanded) ∧ p.substitute expanded = expanded

section

variable {p q : Properties} {t r u v name : Text}

/-! ### One expansion -/

theorem expands_of_fixed (h : p.substitute t = t) : p.Expands t t := ⟨⟨0, rfl⟩, h⟩

/-- An expansion stays, however often placeholders are replaced. -/
theorem iterate_of_le {m n : Nat} (h : p.substitute^[n] t = r) (hr : p.substitute r = r)
    (hmn : n ≤ m) : p.substitute^[m] t = r := by
  obtain ⟨k, rfl⟩ := Nat.exists_eq_add_of_le hmn
  rw [Nat.add_comm, Function.iterate_add_apply, h]
  exact Function.iterate_fixed hr k

/-- **There is at most one expansion.** -/
theorem Expands.unique (hr : p.Expands t r) (hu : p.Expands t u) : r = u := by
  obtain ⟨⟨m, hm⟩, hr⟩ := hr
  obtain ⟨⟨n, hn⟩, hu⟩ := hu
  rw [← iterate_of_le hm hr (Nat.le_max_left m n), iterate_of_le hn hu (Nat.le_max_right m n)]

/-- **Replacing placeholders** does not change what a text expands to. -/
theorem expands_substitute : p.Expands (p.substitute t) r ↔ p.Expands t r := by
  constructor
  · rintro ⟨⟨n, hn⟩, hr⟩
    exact ⟨⟨n + 1, hn⟩, hr⟩
  · rintro ⟨⟨n, hn⟩, hr⟩
    refine ⟨⟨n, ?_⟩, hr⟩
    rw [← Function.iterate_succ_apply]
    exact iterate_of_le hn hr (Nat.le_succ n)

/-- Where two lists of properties agree on all names that are met, they replace the same. -/
theorem iterate_congr
    (h : ∀ k, ∀ name ∈ namesIn (p.substitute^[k] t), q.get? name = p.get? name) (n : Nat) :
    q.substitute^[n] t = p.substitute^[n] t := by
  induction n with
  | zero => rfl
  | succ n ih =>
      rw [Function.iterate_succ_apply', Function.iterate_succ_apply', ih]
      exact substitute_congr (h n)

/-- **What expanding depends on**: the values under the names that are met on the way. -/
theorem expands_congr
    (h : ∀ k, ∀ name ∈ namesIn (p.substitute^[k] t), q.get? name = p.get? name) :
    q.Expands t r ↔ p.Expands t r := by
  have hiterate := iterate_congr h
  constructor
  · rintro ⟨⟨n, hn⟩, hr⟩
    rw [hiterate] at hn
    subst hn
    exact ⟨⟨n, rfl⟩, by rw [← substitute_congr (h n), hr]⟩
  · rintro ⟨⟨n, hn⟩, hr⟩
    subst hn
    exact ⟨⟨n, hiterate n⟩, by rw [substitute_congr (h n), hr]⟩

/-! ### Templates -/

/-- **A text in which every dollar sign begins a placeholder.** -/
inductive IsTemplate : Text → Prop
  | nil : IsTemplate []
  | cons {c : Char} {t : Text} (hc : c ≠ '$') (h : IsTemplate t) : IsTemplate (c :: t)
  | placeholder {name t : Text} (hname : name ≠ []) (hclosed : '\x7d' ∉ name) (h : IsTemplate t) :
      IsTemplate (placeholder name ++ t)

theorem substitute_nil (p : Properties) : p.substitute [] = [] := by
  rw [substitute]

theorem substitute_placeholder (hname : name ≠ []) (hclosed : '\x7d' ∉ name) (t : Text) :
    p.substitute (placeholder name ++ t) =
      (p.get? name).getD (placeholder name) ++ p.substitute t := by
  have hsplit : placeholder name ++ t = '$' :: '\x7b' :: (name ++ '\x7d' :: t) := by
    simp [placeholder]
  rw [hsplit]
  exact substitute_of_cut (cutAtFirst_append t hclosed) hname

theorem substitute_cons {c : Char} (hc : c ≠ '$') (t : Text) :
    p.substitute (c :: t) = c :: p.substitute t :=
  substitute_cons_of_ne fun _ h => absurd h hc

theorem namesIn_placeholder (hname : name ≠ []) (hclosed : '\x7d' ∉ name) (t : Text) :
    namesIn (placeholder name ++ t) = name :: namesIn t := by
  have hsplit : placeholder name ++ t = '$' :: '\x7b' :: (name ++ '\x7d' :: t) := by
    simp [placeholder]
  have hcut := cutAtFirst_append t hclosed
  rw [hsplit, namesIn]
  split
  · next hnone =>
    rw [hcut] at hnone
    cases hnone
  · next name' rest hcut' =>
    rw [hcut] at hcut'
    cases hcut'
    rw [if_neg (by simpa using hname)]

theorem namesIn_cons {c : Char} (hc : c ≠ '$') (t : Text) : namesIn (c :: t) = namesIn t := by
  rw [namesIn]
  exact fun _ h => absurd h hc

theorem IsTemplate.append (ht : IsTemplate t) (hu : IsTemplate u) : IsTemplate (t ++ u) := by
  induction ht with
  | nil => exact hu
  | cons hc _ ih => exact .cons hc ih
  | placeholder hname hclosed _ ih =>
      rw [List.append_assoc]
      exact .placeholder hname hclosed ih

theorem isTemplate_placeholder (hname : name ≠ []) (hclosed : '\x7d' ∉ name) :
    IsTemplate (placeholder name) := by
  have h := IsTemplate.placeholder hname hclosed .nil
  rwa [List.append_nil] at h

/-- Behind a template everything is replaced as if it stood alone. -/
theorem IsTemplate.substitute_append (ht : IsTemplate t) (u : Text) :
    p.substitute (t ++ u) = p.substitute t ++ p.substitute u := by
  induction ht with
  | nil => rw [substitute_nil, List.nil_append, List.nil_append]
  | cons hc _ ih =>
      rw [List.cons_append, substitute_cons hc, substitute_cons hc, ih, List.cons_append]
  | placeholder hname hclosed _ ih =>
      rw [List.append_assoc, substitute_placeholder hname hclosed,
        substitute_placeholder hname hclosed, ih, List.append_assoc]

theorem IsTemplate.substitute (hp : ∀ entry ∈ p, IsTemplate entry.2) (ht : IsTemplate t) :
    IsTemplate (p.substitute t) := by
  induction ht with
  | nil =>
      rw [substitute_nil]
      exact .nil
  | cons hc _ ih =>
      rw [substitute_cons hc]
      exact .cons hc ih
  | @placeholder name t hname hclosed _ ih =>
      rw [substitute_placeholder hname hclosed]
      refine IsTemplate.append ?_ ih
      cases hvalue : p.get? name with
      | none => exact isTemplate_placeholder hname hclosed
      | some value => exact hp _ (OrderedMap.mem_of_get? hvalue)

theorem IsTemplate.iterate (hp : ∀ entry ∈ p, IsTemplate entry.2) (ht : IsTemplate t) (n : Nat) :
    IsTemplate (p.substitute^[n] t) := by
  induction n generalizing t with
  | zero => exact ht
  | succ n ih => exact ih (ht.substitute hp)

theorem IsTemplate.iterate_append (hp : ∀ entry ∈ p, IsTemplate entry.2) (ht : IsTemplate t)
    (u : Text) (n : Nat) :
    p.substitute^[n] (t ++ u) = p.substitute^[n] t ++ p.substitute^[n] u := by
  induction n generalizing t u with
  | zero => rfl
  | succ n ih =>
      rw [Function.iterate_succ_apply, ht.substitute_append, ih (ht.substitute hp)]
      rfl

/-- **Expansions are put together** like the texts. -/
theorem Expands.append (hp : ∀ entry ∈ p, IsTemplate entry.2) (ht : IsTemplate t)
    (hr : p.Expands t r) (hv : p.Expands u v) : p.Expands (t ++ u) (r ++ v) := by
  obtain ⟨⟨m, hm⟩, hr⟩ := hr
  obtain ⟨⟨n, hn⟩, hv⟩ := hv
  have hm' := iterate_of_le hm hr (Nat.le_max_left m n)
  have hn' := iterate_of_le hn hv (Nat.le_max_right m n)
  have htemplate : IsTemplate r := hm' ▸ ht.iterate hp _
  refine ⟨⟨max m n, ?_⟩, ?_⟩
  · rw [ht.iterate_append hp, hm', hn']
  · rw [htemplate.substitute_append, hr, hv]

/-- **A placeholder** expands to what its value does; without a value it stays. -/
theorem expands_placeholder (hname : name ≠ []) (hclosed : '\x7d' ∉ name)
    (h : ∀ value, p.get? name = some value → ∃ r, p.Expands value r) :
    ∃ r, p.Expands (placeholder name) r := by
  have hstep : p.substitute (placeholder name) = (p.get? name).getD (placeholder name) := by
    have happend := substitute_placeholder (p := p) hname hclosed []
    rwa [List.append_nil, substitute_nil, List.append_nil] at happend
  cases hvalue : p.get? name with
  | none =>
      rw [hvalue] at hstep
      exact ⟨_, expands_of_fixed hstep⟩
  | some value =>
      rw [hvalue] at hstep
      obtain ⟨r, hr⟩ := h value hvalue
      refine ⟨r, expands_substitute.mp ?_⟩
      rw [hstep]
      exact hr

/-- A template has an expansion if the values of its placeholders do. -/
theorem IsTemplate.exists_expands (hp : ∀ entry ∈ p, IsTemplate entry.2) (ht : IsTemplate t)
    (h : ∀ name ∈ namesIn t, ∀ value, p.get? name = some value → ∃ r, p.Expands value r) :
    ∃ r, p.Expands t r := by
  induction ht with
  | nil => exact ⟨[], expands_of_fixed (substitute_nil p)⟩
  | @cons c t hc ht ih =>
      rw [namesIn_cons hc] at h
      obtain ⟨r, hr⟩ := ih h
      have hfirst : p.Expands [c] [c] := by
        refine expands_of_fixed ?_
        rw [substitute_cons hc, substitute_nil]
      exact ⟨[c] ++ r, hfirst.append hp (.cons hc .nil) hr⟩
  | @placeholder name t hname hclosed ht ih =>
      rw [namesIn_placeholder hname hclosed, List.forall_mem_cons] at h
      obtain ⟨r, hr⟩ := ih h.2
      obtain ⟨u, hu⟩ := expands_placeholder hname hclosed h.1
      exact ⟨u ++ r, hu.append hp (isTemplate_placeholder hname hclosed) hr⟩

/-! ### Properties without cycles -/

/-- The value of a property names another. -/
def Refers (p : Properties) (name other : Text) : Prop :=
  ∃ value, p.get? name = some value ∧ other ∈ namesIn value

/-- **Properties that refer to one another without cycles.** -/
def IsAcyclic (p : Properties) : Prop := ∀ name, ¬ Relation.TransGen p.Refers name name

/-- Without cycles every chain of references ends, since there are only finitely many properties. -/
theorem IsAcyclic.wellFounded (hp : p.IsAcyclic) :
    WellFounded fun b a : {name // name ∈ p.map Prod.fst} => p.Refers a b := by
  have htrans : WellFounded (Relation.TransGen
      fun b a : {name // name ∈ p.map Prod.fst} => p.Refers a b) := by
    have : Std.Irrefl (Relation.TransGen
        fun b a : {name // name ∈ p.map Prod.fst} => p.Refers a b) := by
      refine ⟨fun a hcycle => hp a.1 ?_⟩
      exact (Relation.transGen_swap.mp hcycle).lift Subtype.val fun _ _ h => h
    exact Finite.wellFounded_of_trans_of_irrefl _
  exact Subrelation.wf (fun h => .single h) htrans

/-- **Without cycles there is an expansion** of every template, if the values are templates too. -/
theorem exists_expands (hp : p.IsAcyclic) (hvalues : ∀ entry ∈ p, IsTemplate entry.2)
    (ht : IsTemplate t) : ∃ r, p.Expands t r := by
  have hdefined : ∀ a : {name // name ∈ p.map Prod.fst}, ∀ value, p.get? a.1 = some value →
      ∃ r, p.Expands value r := by
    -- along the references: what the names of a value expand to is known first
    intro a
    induction a using hp.wellFounded.induction with
    | _ a ih =>
        intro value hvalue
        refine (hvalues _ (OrderedMap.mem_of_get? hvalue)).exists_expands hvalues ?_
        intro name hname inner hinner
        have hmem : name ∈ p.map Prod.fst :=
          List.mem_map_of_mem (f := Prod.fst) (OrderedMap.mem_of_get? hinner)
        exact ih ⟨name, hmem⟩ ⟨value, hvalue, hname⟩ inner hinner
  refine ht.exists_expands hvalues fun name _ value hvalue => ?_
  exact hdefined ⟨name, List.mem_map_of_mem (f := Prod.fst) (OrderedMap.mem_of_get? hvalue)⟩ value
    hvalue

end

end Unjar.Properties
