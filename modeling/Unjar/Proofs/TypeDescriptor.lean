import Unjar.Proofs.Text
import Unjar.TypeDescriptor

/-!
The grammar of type descriptors.

A descriptor spells a type if printing the type gives the descriptor.  Reading finds the type that a
descriptor spells, and finds one only where there is one; so a descriptor spells at most one type,
and a text that spells none names no class.

Main definitions:

* `Unjar.FieldType.WellFormed`, `Unjar.MethodType.WellFormed` — the types that have a descriptor;
* `Unjar.Descriptor.FieldNames`, `Unjar.Descriptor.MethodNames`, `Unjar.Descriptor.ClassNames` —
  that a descriptor names a class.

Main results:

* `Unjar.FieldType.read_eq_some`, `Unjar.MethodType.parse_eq_some` — **reading undoes printing, and
  only that**;
* `Unjar.Descriptor.ofField_eq_some`, `Unjar.Descriptor.mem_ofMethod`,
  `Unjar.Descriptor.ofClass_eq_some` — the classes that are found are those that are named.
-/

set_option autoImplicit false

namespace Unjar

namespace FieldType

/-! ### Types of fields -/

/-- The types that have a descriptor. -/
def WellFormed : FieldType → Prop
  | primitive letter => isPrimitive letter = true
  | object name => name ≠ [] ∧ ';'.toNat ∉ name
  | array element => element.WellFormed

theorem print_object_append (name rest : Name) :
    (object name).print ++ rest = 'L'.toNat :: (name ++ ';'.toNat :: rest) := by
  simp only [print, List.cons_append, List.append_assoc, List.nil_append]

/-- What is read at the front of a descriptor was printed there. -/
theorem of_read_eq_some {s rest : Name} {t : FieldType} (h : read s = some (t, rest)) :
    t.WellFormed ∧ s = t.print ++ rest := by
  induction s generalizing t with
  | nil => cases h
  | cons c r ih =>
      unfold read at h
      split at h
      · next hletter =>
        cases h
        exact ⟨hletter, rfl⟩
      · split at h
        · next harray =>
          obtain ⟨⟨element, rest'⟩, hread, heq⟩ := Option.map_eq_some_iff.1 h
          cases heq
          obtain ⟨hwf, rfl⟩ := ih hread
          exact ⟨hwf, by rw [harray]; rfl⟩
        · split at h
          · next hobject =>
            split at h
            · next name rest' hcut =>
              split at h
              · cases h
              · next hname =>
                cases h
                refine ⟨⟨fun hnil => hname (by rw [hnil]; rfl), not_mem_of_cutAtFirst hcut⟩, ?_⟩
                rw [hobject, cutAtFirst_eq_some hcut, print_object_append]
            · cases h
          · cases h

/-- What is printed at the front of a descriptor is read there. -/
theorem read_print {t : FieldType} (rest : Name) (h : t.WellFormed) :
    read (t.print ++ rest) = some (t, rest) := by
  induction t with
  | primitive letter =>
      have hletter : isPrimitive letter = true := h
      rw [print, List.singleton_append, read, if_pos hletter]
  | object name =>
      obtain ⟨hname, hsep⟩ := h
      have hempty : ¬name.isEmpty = true := fun hnil => hname (List.isEmpty_iff.1 hnil)
      rw [print_object_append, read, if_neg (by decide), if_neg (by decide), if_pos rfl,
        cutAtFirst_append rest hsep]
      exact if_neg hempty
  | array element ih =>
      rw [print, List.cons_append, read, if_neg (by decide), if_pos rfl, ih h]
      rfl

/-- **Reading undoes printing, and only that.** -/
theorem read_eq_some {s rest : Name} {t : FieldType} :
    read s = some (t, rest) ↔ t.WellFormed ∧ s = t.print ++ rest := by
  constructor
  · exact of_read_eq_some
  · rintro ⟨hwf, rfl⟩
    exact read_print rest hwf

/-- No type begins like the end of the parameters or like `void`. -/
theorem exists_print_eq_cons {t : FieldType} (h : t.WellFormed) :
    ∃ c r, t.print = c :: r ∧ c ≠ ')'.toNat ∧ c ≠ 'V'.toNat := by
  cases t with
  | primitive letter =>
      have hletter : isPrimitive letter = true := h
      refine ⟨letter, [], rfl, ?_, ?_⟩
      · rintro rfl
        cases hletter
      · rintro rfl
        cases hletter
  | object name => exact ⟨_, _, rfl, by decide, by decide⟩
  | array element => exact ⟨_, _, rfl, by decide, by decide⟩

end FieldType

/-! ### Types of methods -/

namespace MethodType

/-- The types that have a descriptor. -/
structure WellFormed (t : MethodType) : Prop where
  parameters_wellFormed : ∀ p ∈ t.parameters, p.WellFormed
  result_wellFormed : ∀ r ∈ t.result, r.WellFormed

theorem of_readParameters_eq_some {s rest : Name} {ts : List FieldType}
    (h : readParameters s = some (ts, rest)) :
    (∀ t ∈ ts, t.WellFormed) ∧ s = ts.flatMap FieldType.print ++ ')'.toNat :: rest := by
  induction s using readParameters.induct generalizing ts with
  | case1 =>
      rw [readParameters] at h
      cases h
  | case2 r =>
      rw [readParameters, if_pos rfl] at h
      cases h
      exact ⟨by simp, rfl⟩
  | case3 c r hc hread =>
      rw [readParameters, if_neg hc] at h
      split at h
      · cases h
      · next hsome =>
        rw [hread] at hsome
        cases hsome
  | case4 c r hc first rest' hread ih =>
      rw [readParameters, if_neg hc] at h
      split at h
      · cases h
      · next hsome =>
        rw [hread] at hsome
        cases hsome
        obtain ⟨⟨more, rest''⟩, hmore, heq⟩ := Option.map_eq_some_iff.1 h
        cases heq
        obtain ⟨hfirst, hprint⟩ := FieldType.read_eq_some.mp hread
        obtain ⟨hwf, rfl⟩ := ih hmore
        refine ⟨List.forall_mem_cons.2 ⟨hfirst, hwf⟩, ?_⟩
        rw [hprint, List.flatMap_cons, List.append_assoc]

theorem readParameters_print {ts : List FieldType} (rest : Name) (h : ∀ t ∈ ts, t.WellFormed) :
    readParameters (ts.flatMap FieldType.print ++ ')'.toNat :: rest) = some (ts, rest) := by
  induction ts with
  | nil => rw [List.flatMap_nil, List.nil_append, readParameters, if_pos rfl]
  | cons t ts ih =>
      obtain ⟨ht, hts⟩ := List.forall_mem_cons.1 h
      have hread := FieldType.read_print (ts.flatMap FieldType.print ++ ')'.toNat :: rest) ht
      obtain ⟨c, r, hcons, hc, -⟩ := FieldType.exists_print_eq_cons ht
      rw [hcons, List.cons_append] at hread
      rw [List.flatMap_cons, hcons, List.append_assoc, List.cons_append, readParameters, if_neg hc]
      split
      · next hnone =>
        rw [hread] at hnone
        cases hnone
      · next hsome =>
        rw [hread] at hsome
        cases hsome
        rw [ih hts]
        rfl

def resultPrint : Option FieldType → Name
  | none => ['V'.toNat]
  | some result => result.print

theorem readResult_eq_some {s : Name} {result : Option FieldType} :
    readResult s = some result ↔ (∀ r ∈ result, r.WellFormed) ∧ s = resultPrint result := by
  unfold readResult
  split
  · next hvoid =>
    subst hvoid
    constructor
    · intro h
      cases h
      exact ⟨by simp, rfl⟩
    · rintro ⟨hwf, hprint⟩
      cases result with
      | none => rfl
      | some r =>
          obtain ⟨c, rest, hcons, -, hc⟩ := FieldType.exists_print_eq_cons (hwf r rfl)
          rw [resultPrint, hcons] at hprint
          cases hprint
          exact absurd rfl hc
  · next hvoid =>
    constructor
    · intro h
      split at h
      · next r hread =>
        cases h
        obtain ⟨hwf, hprint⟩ := FieldType.read_eq_some.mp hread
        rw [List.append_nil] at hprint
        refine ⟨?_, hprint⟩
        rintro _ ⟨⟩
        exact hwf
      · cases h
    · rintro ⟨hwf, rfl⟩
      cases result with
      | none => exact absurd rfl hvoid
      | some r =>
          have hread := FieldType.read_print [] (hwf r rfl)
          rw [List.append_nil] at hread
          simp only [resultPrint, hread]

/-- **Reading undoes printing, and only that.** -/
theorem parse_eq_some {s : Name} {t : MethodType} :
    parse s = some t ↔ t.WellFormed ∧ s = t.print := by
  constructor
  · intro h
    cases s with
    | nil => cases h
    | cons c r =>
        by_cases hopen : c = '('.toNat
        · rw [parse, if_pos hopen] at h
          obtain ⟨⟨parameters, rest⟩, hparameters, h⟩ := Option.bind_eq_some_iff.1 h
          obtain ⟨result, hresult, h⟩ := Option.bind_eq_some_iff.1 h
          cases h
          obtain ⟨hwf, rfl⟩ := of_readParameters_eq_some hparameters
          obtain ⟨hwf', rfl⟩ := readResult_eq_some.1 hresult
          exact ⟨⟨hwf, hwf'⟩, by rw [hopen]; rfl⟩
        · rw [parse, if_neg hopen] at h
          cases h
  · rintro ⟨⟨hparameters, hresult⟩, rfl⟩
    obtain ⟨parameters, result⟩ := t
    have hprint : print ⟨parameters, result⟩ = '('.toNat ::
        (parameters.flatMap FieldType.print ++ ')'.toNat :: resultPrint result) := rfl
    rw [hprint, parse, if_pos rfl, readParameters_print _ hparameters]
    simp only [Option.bind_eq_bind, Option.bind_some]
    rw [readResult_eq_some.2 ⟨hresult, rfl⟩]
    rfl

end MethodType

/-! ### The classes that a descriptor names -/

namespace Descriptor

/-- The descriptor of a field names a class: it spells a type with that class. -/
def FieldNames (s n : Name) : Prop :=
  ∃ t : FieldType, t.WellFormed ∧ s = t.print ∧ t.className = some n

/-- The descriptor of a method names a class: as a parameter or as the result. -/
def MethodNames (s n : Name) : Prop :=
  ∃ t : MethodType, t.WellFormed ∧ s = t.print ∧ n ∈ t.classNames

/-- The name in a class constant names a class: that of its elements where it is the descriptor of
an array, otherwise itself. -/
def ClassNames (s n : Name) : Prop :=
  if s.head? = some '['.toNat then FieldNames s n else s ≠ [] ∧ n = s.dotted

theorem ofField_eq_some {s n : Name} : ofField s = some n ↔ FieldNames s n := by
  unfold ofField FieldNames
  constructor
  · intro h
    split at h
    · next t hread =>
      obtain ⟨hwf, hprint⟩ := FieldType.read_eq_some.mp hread
      rw [List.append_nil] at hprint
      exact ⟨t, hwf, hprint, h⟩
    · cases h
  · rintro ⟨t, hwf, rfl, hname⟩
    have hread := FieldType.read_print [] hwf
    rw [List.append_nil] at hread
    rw [hread]
    exact hname

theorem mem_ofMethod {s n : Name} : n ∈ ofMethod s ↔ MethodNames s n := by
  unfold ofMethod MethodNames
  constructor
  · intro h
    split at h
    · next t hparse =>
      obtain ⟨hwf, hprint⟩ := MethodType.parse_eq_some.1 hparse
      exact ⟨t, hwf, hprint, h⟩
    · cases h
  · rintro ⟨t, hwf, hprint, hname⟩
    rw [MethodType.parse_eq_some.2 ⟨hwf, hprint⟩]
    exact hname

theorem ofClass_eq_some {s n : Name} : ofClass s = some n ↔ ClassNames s n := by
  unfold ofClass ClassNames
  cases s with
  | nil => simp
  | cons c r =>
      simp only [List.head?_cons, Option.some.injEq]
      split
      · exact ofField_eq_some
      · constructor
        · intro h
          cases h
          exact ⟨List.cons_ne_nil c r, rfl⟩
        · rintro ⟨-, rfl⟩
          rfl

end Descriptor

end Unjar
