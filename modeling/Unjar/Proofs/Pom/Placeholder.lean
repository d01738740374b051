import Unjar.Pom.Placeholder
import Unjar.Proofs.OrderedMap
import Unjar.Proofs.Text

/-!
The names in placeholders.

Which placeholders a text has does not depend on any properties.  Replacing them takes no more than
the values of the properties that they name, so where two lists of properties agree on those, both
give the same.

Main definition: `Unjar.Properties.namesIn` — **the names in the placeholders** of a text.

Main results:

* `Unjar.Properties.substitute_congr` — what replacing placeholders depends on;
* `Unjar.Properties.mem_substitute` — what it brings in;
* `Unjar.Properties.substitute_of_not_infix` — a text in which no placeholder begins stays.
-/

set_option autoImplicit false

namespace Unjar.Properties

/-- **The names in the placeholders of a text**, in order. -/
def namesIn : Text → List Text
  | [] => []
  | '$' :: '\x7b' :: r =>
    match _h : cutAtFirst '\x7d' r with
    | none => []
    | some (name, rest) =>
      if name.isEmpty then namesIn ('\x7b' :: r) else name :: namesIn rest
  | _ :: r => namesIn r
termination_by t => t.length
decreasing_by
  · simp
  · have := length_of_cutAtFirst _h
    simp only [List.length_cons]
    omega
  · simp

section

variable {p q : Properties} {t r name rest : Text}

/-! ### One step -/

theorem substitute_cons_of_ne {c : Char} (h : ∀ r', c = '$' → r ≠ '\x7b' :: r') :
    p.substitute (c :: r) = c :: p.substitute r := by
  rw [substitute]
  exact fun r' hc hr => h r' hc hr

theorem substitute_of_cut (hcut : cutAtFirst '\x7d' r = some (name, rest)) (hname : name ≠ []) :
    p.substitute ('$' :: '\x7b' :: r) =
      (p.get? name).getD (placeholder name) ++ p.substitute rest := by
  rw [substitute]
  split
  · next hnone =>
    rw [hcut] at hnone
    cases hnone
  · next name' rest' hcut' =>
    rw [hcut] at hcut'
    cases hcut'
    rw [if_neg (by simpa using hname)]

theorem substitute_of_cut_nil (hcut : cutAtFirst '\x7d' r = some ([], rest)) :
    p.substitute ('$' :: '\x7b' :: r) = '$' :: p.substitute ('\x7b' :: r) := by
  rw [substitute]
  split
  · next hnone =>
    rw [hcut] at hnone
    cases hnone
  · next name' rest' hcut' =>
    rw [hcut] at hcut'
    cases hcut'
    rfl

theorem substitute_of_cut_none (hcut : cutAtFirst '\x7d' r = none) :
    p.substitute ('$' :: '\x7b' :: r) = '$' :: '\x7b' :: r := by
  rw [substitute]
  split
  · rfl
  · next name' rest' hcut' =>
    rw [hcut] at hcut'
    cases hcut'

/-- **What replacing placeholders depends on**: the values under the names in them. -/
theorem substitute_congr (h : ∀ name ∈ namesIn t, p.get? name = q.get? name) :
    p.substitute t = q.substitute t := by
  fun_induction namesIn t with
  | case1 => rw [substitute, substitute]
  | case2 r hcut => rw [substitute_of_cut_none hcut, substitute_of_cut_none hcut]
  | case3 r name rest hcut hempty ih =>
      obtain rfl : name = [] := List.isEmpty_iff.mp hempty
      rw [substitute_of_cut_nil hcut, substitute_of_cut_nil hcut, ih h]
  | case4 r name rest hcut hempty ih =>
      rw [List.forall_mem_cons] at h
      have hname : name ≠ [] := by simpa using hempty
      rw [substitute_of_cut hcut hname, substitute_of_cut hcut hname, h.1, ih h.2]
  | case5 c r hne ih =>
      have hne' : ∀ r', c = '$' → r ≠ '\x7b' :: r' := fun r' hc hr => hne r' hc hr
      rw [substitute_cons_of_ne hne', substitute_cons_of_ne hne', ih h]

/-- Replacing placeholders brings in nothing but values of properties. -/
theorem mem_substitute {c : Char} (h : c ∈ p.substitute t) :
    c ∈ t ∨ ∃ entry ∈ p, c ∈ entry.2 := by
  fun_induction namesIn t with
  | case1 =>
      rw [substitute] at h
      cases h
  | case2 r hcut =>
      rw [substitute_of_cut_none hcut] at h
      exact .inl h
  | case3 r name rest hcut hempty ih =>
      obtain rfl : name = [] := List.isEmpty_iff.mp hempty
      rw [substitute_of_cut_nil hcut] at h
      rcases List.mem_cons.mp h with rfl | h
      · exact .inl List.mem_cons_self
      · exact (ih h).imp_left (List.mem_cons_of_mem _)
  | case4 r name rest hcut hempty ih =>
      rw [substitute_of_cut hcut (by simpa using hempty)] at h
      rcases List.mem_append.mp h with h | h
      · cases hvalue : p.get? name with
        | some value =>
            rw [hvalue] at h
            exact .inr ⟨(name, value), OrderedMap.mem_of_get? hvalue, h⟩
        | none =>
            -- the placeholder stays, and it is a part of the text
            rw [hvalue] at h
            refine .inl ?_
            rw [cutAtFirst_eq_some hcut]
            simp only [Option.getD_none, placeholder, List.cons_append, List.mem_cons,
              List.mem_append, List.not_mem_nil, or_false] at h
            rcases h with rfl | rfl | h | rfl
            · simp
            · simp
            · simp [h]
            · simp
      · rcases ih h with h | h
        · refine .inl ?_
          rw [cutAtFirst_eq_some hcut]
          simp [h]
        · exact .inr h
  | case5 c' r hne ih =>
      rw [substitute_cons_of_ne fun r' hc hr => hne r' hc hr] at h
      rcases List.mem_cons.mp h with rfl | h
      · exact .inl List.mem_cons_self
      · exact (ih h).imp_left (List.mem_cons_of_mem _)

/-- A text in which no placeholder begins stays as it is. -/
theorem substitute_of_not_infix (h : ¬['$', '\x7b'] <:+: t) : p.substitute t = t := by
  induction t with
  | nil => rw [substitute]
  | cons c r ih =>
      have hne : ∀ r', c = '$' → r ≠ '\x7b' :: r' := by
        rintro r' rfl rfl
        exact h ⟨[], r', rfl⟩
      rw [substitute_cons_of_ne hne, ih]
      exact fun hinside => h (hinside.trans (List.suffix_cons c r).isInfix)

end

end Unjar.Properties
