import Unjar.Proofs.TypeDescriptor

/-!
What descriptors spell.

The grammar of descriptors is stated here of their texts, apart from types and from reading: which
texts spell the type of a field and which the type of a method, and the classes that they name.  A
class name may itself hold parentheses and brackets, so that the marks of a text do not tell whether
it is a descriptor; still reading accepts the texts of the grammar and no others, and of a text that
is a descriptor only in part nothing is left.

Main definitions:

* `Unjar.Descriptor.SpellsField`, `Unjar.Descriptor.SpellsFields`, `Unjar.Descriptor.SpellsMethod` —
  **the grammar**, with the internal names of the classes.

Main results:

* `Unjar.Descriptor.SpellsField.exists_type`, `Unjar.Descriptor.SpellsMethod.exists_type` — what is
  spelled is the text of a type;
* `Unjar.FieldType.WellFormed.spells`, `Unjar.MethodType.WellFormed.spells` — the text of a type is
  spelled;
* `Unjar.Descriptor.classes_of_spelled` — **the classes found are those spelled**, and where no type
  is spelled none is found.
-/

set_option autoImplicit false

namespace Unjar

/-! ### The grammar -/

namespace Descriptor

/-- **A text spells the type of a field**, whose elements are of a class or of none. -/
inductive SpellsField : Name → Option Name → Prop
  | primitive {letter : CodePoint} (h : letter ∈ Name.ofString "BCDFIJSZ") :
      SpellsField [letter] none
  | object {name : Name} (hname : name ≠ []) (hend : ';'.toNat ∉ name) :
      SpellsField ('L'.toNat :: name ++ [';'.toNat]) (some name)
  | array {element : Name} {c : Option Name} (h : SpellsField element c) :
      SpellsField ('['.toNat :: element) c

/-- A text spells any number of such types, one behind the other. -/
inductive SpellsFields : Name → List Name → Prop
  | nil : SpellsFields [] []
  | cons {front back : Name} {c : Option Name} {names : List Name} (hfirst : SpellsField front c)
      (hmore : SpellsFields back names) : SpellsFields (front ++ back) (c.toList ++ names)

/-- **A text spells the type of a method**: its parameters, and its result or `void`. -/
inductive SpellsMethod : Name → List Name → Prop
  | void {parameters : Name} {names : List Name} (h : SpellsFields parameters names) :
      SpellsMethod ('('.toNat :: parameters ++ [')'.toNat, 'V'.toNat]) names
  | returning {parameters result : Name} {names : List Name} {c : Option Name}
      (h : SpellsFields parameters names) (hresult : SpellsField result c) :
      SpellsMethod ('('.toNat :: parameters ++ ')'.toNat :: result) (names ++ c.toList)

end Descriptor

open Descriptor

/-! ### What is spelled is the text of a type -/

theorem FieldType.wellFormed_primitive {letter : CodePoint} :
    (primitive letter).WellFormed ↔ letter ∈ Name.ofString "BCDFIJSZ" := List.contains_iff_mem

/-- The classes of a type come in front of those of the types behind it. -/
theorem FieldType.filterMap_className_cons (t : FieldType) (ts : List FieldType) :
    (t :: ts).filterMap className = t.className.toList ++ ts.filterMap className := by
  rw [List.filterMap_eq_flatMap_toList, List.flatMap_cons, ← List.filterMap_eq_flatMap_toList]

theorem MethodType.classNames_void (ts : List FieldType) :
    classNames ⟨ts, none⟩ = ts.filterMap FieldType.className := by
  rw [classNames, Option.toList_none, List.append_nil]

theorem MethodType.classNames_returning (ts : List FieldType) (t : FieldType) :
    classNames ⟨ts, some t⟩ = ts.filterMap FieldType.className ++ t.className.toList := by
  rw [classNames, Option.toList_some, List.filterMap_append, FieldType.filterMap_className_cons,
    List.filterMap_nil, List.append_nil]

namespace Descriptor

variable {s : Name} {c : Option Name} {names : List Name}

theorem SpellsField.exists_type (h : SpellsField s c) :
    ∃ t : FieldType, t.WellFormed ∧ s = t.print ∧ t.className = c.map Name.dotted := by
  induction h with
  | @primitive letter hletter =>
      exact ⟨.primitive letter, FieldType.wellFormed_primitive.mpr hletter, rfl, rfl⟩
  | @object name hname hend => exact ⟨.object name, ⟨hname, hend⟩, rfl, rfl⟩
  | array _ ih =>
      obtain ⟨element, hwf, rfl, hclass⟩ := ih
      exact ⟨.array element, hwf, rfl, hclass⟩

theorem SpellsFields.exists_types (h : SpellsFields s names) :
    ∃ ts : List FieldType, (∀ t ∈ ts, t.WellFormed) ∧ s = ts.flatMap FieldType.print ∧
      ts.filterMap FieldType.className = names.map Name.dotted := by
  induction h with
  | nil => exact ⟨[], by simp, rfl, rfl⟩
  | cons hfirst _ ih =>
      obtain ⟨t, ht, rfl, hclass⟩ := hfirst.exists_type
      obtain ⟨ts, hts, rfl, hclasses⟩ := ih
      refine ⟨t :: ts, List.forall_mem_cons.mpr ⟨ht, hts⟩, List.flatMap_cons.symm, ?_⟩
      rw [FieldType.filterMap_className_cons, hclass, hclasses, List.map_append, Option.toList_map]

theorem SpellsMethod.exists_type (h : SpellsMethod s names) :
    ∃ t : MethodType, t.WellFormed ∧ s = t.print ∧ t.classNames = names.map Name.dotted := by
  cases h with
  | void h =>
      obtain ⟨ts, hts, rfl, hclasses⟩ := h.exists_types
      exact ⟨⟨ts, none⟩, ⟨hts, by simp⟩, rfl, (MethodType.classNames_void ts).trans hclasses⟩
  | returning h hresult =>
      obtain ⟨ts, hts, rfl, hclasses⟩ := h.exists_types
      obtain ⟨t, ht, rfl, hclass⟩ := hresult.exists_type
      refine ⟨⟨ts, some t⟩, ⟨hts, by simpa using ht⟩, rfl, ?_⟩
      rw [MethodType.classNames_returning, hclasses, hclass, List.map_append, Option.toList_map]

end Descriptor

/-! ### The text of a type is spelled -/

theorem FieldType.WellFormed.spells {t : FieldType} (h : t.WellFormed) :
    ∃ c, SpellsField t.print c ∧ t.className = c.map Name.dotted := by
  induction t with
  | primitive letter => exact ⟨none, .primitive (FieldType.wellFormed_primitive.mp h), rfl⟩
  | object name => exact ⟨some name, .object h.1 h.2, rfl⟩
  | array element ih =>
      obtain ⟨c, hspells, hclass⟩ := ih h
      exact ⟨c, hspells.array, hclass⟩

theorem FieldType.spells_all {ts : List FieldType} (h : ∀ t ∈ ts, t.WellFormed) :
    ∃ names, SpellsFields (ts.flatMap print) names := by
  induction ts with
  | nil => exact ⟨[], .nil⟩
  | cons t ts ih =>
      obtain ⟨ht, hts⟩ := List.forall_mem_cons.mp h
      obtain ⟨c, hspells, -⟩ := ht.spells
      obtain ⟨names, hmore⟩ := ih hts
      exact ⟨c.toList ++ names, .cons hspells hmore⟩

theorem MethodType.WellFormed.spells {t : MethodType} (h : t.WellFormed) :
    ∃ names, SpellsMethod t.print names := by
  obtain ⟨ts, result⟩ := t
  obtain ⟨names, hparameters⟩ := FieldType.spells_all h.parameters_wellFormed
  cases result with
  | none => exact ⟨names, .void hparameters⟩
  | some r =>
      obtain ⟨c, hspells, -⟩ := (h.result_wellFormed r rfl).spells
      exact ⟨names ++ c.toList, .returning hparameters hspells⟩

/-! ### The classes that are found -/

namespace Descriptor

variable {s : Name}

/-- A text that spells the type of a method names the classes that it spells. -/
theorem SpellsMethod.ofMethod_eq {names : List Name} (h : SpellsMethod s names) :
    ofMethod s = names.map Name.dotted := by
  obtain ⟨t, hwf, hprint, hclasses⟩ := h.exists_type
  rw [ofMethod, MethodType.parse_eq_some.mpr ⟨hwf, hprint⟩]
  exact hclasses

/-- A text that spells none names none. -/
theorem ofMethod_eq_nil (h : ∀ names, ¬SpellsMethod s names) : ofMethod s = [] := by
  unfold ofMethod
  split
  · next t hparse =>
    obtain ⟨hwf, rfl⟩ := MethodType.parse_eq_some.mp hparse
    obtain ⟨names, hspells⟩ := hwf.spells
    exact absurd hspells (h names)
  · rfl

theorem SpellsField.ofField_eq {c : Option Name} (h : SpellsField s c) :
    ofField s = c.map Name.dotted := by
  obtain ⟨t, hwf, rfl, hclass⟩ := h.exists_type
  have hread := FieldType.read_print [] hwf
  rw [List.append_nil] at hread
  rw [ofField, hread]
  exact hclass

theorem ofField_eq_none (h : ∀ name, ¬SpellsField s (some name)) : ofField s = none := by
  unfold ofField
  split
  · next t hread =>
    obtain ⟨hwf, hprint⟩ := FieldType.read_eq_some.mp hread
    rw [List.append_nil] at hprint
    obtain ⟨c, hspells, hclass⟩ := hwf.spells
    cases c with
    | none => exact hclass
    | some name => exact absurd (hprint ▸ hspells) (h name)
  · rfl

/-- The name of a class is read alike by itself and between the marks of a descriptor. -/
theorem ofClass_eq_ofField {name : Name} (hname : name ≠ []) (hend : ';'.toNat ∉ name)
    (harray : name.head? ≠ some '['.toNat) :
    ofClass name = ofField ('L'.toNat :: name ++ [';'.toNat]) := by
  rw [(SpellsField.object hname hend).ofField_eq]
  cases name with
  | nil => exact absurd rfl hname
  | cons c r =>
      have hc : ¬c = '['.toNat := fun h => harray (congrArg some h)
      rw [ofClass, if_neg hc, Option.map_some]

/-- The name of an array is its descriptor. -/
theorem ofClass_of_array (h : s.head? = some '['.toNat) : ofClass s = ofField s := by
  cases s with
  | nil => cases h
  | cons c r => rw [ofClass, if_pos (Option.some.inj h)]

/-- **The classes found are those spelled**: of a method those of its parameters in order and of its
result, of a field the one of its elements, and where no type is spelled none.  What a constant
holds names the class that the descriptor with this class names. -/
theorem classes_of_spelled :
    (∀ s names, SpellsMethod s names → ofMethod s = names.map Name.dotted) ∧
      (∀ s, (∀ names, ¬SpellsMethod s names) → ofMethod s = []) ∧
      (∀ s name, SpellsField s (some name) → ofField s = some name.dotted) ∧
      (∀ s, (∀ name, ¬SpellsField s (some name)) → ofField s = none) ∧
      (∀ name : Name, name ≠ [] → ';'.toNat ∉ name → name.head? ≠ some '['.toNat →
        ofClass name = ofField ('L'.toNat :: name ++ [';'.toNat])) ∧
      ∀ s : Name, s.head? = some '['.toNat → ofClass s = ofField s :=
  ⟨fun _ _ h => h.ofMethod_eq, fun _ h => ofMethod_eq_nil h, fun _ _ h => h.ofField_eq,
    fun _ h => ofField_eq_none h, fun _ hname hend harray => ofClass_eq_ofField hname hend harray,
    fun _ h => ofClass_of_array h⟩

/-- A name that holds the marks of a method. -/
def sampleName : Name := Name.ofString "a)(V/[B"

/-- A method with a number and an array of arrays. -/
def sampleType : MethodType :=
  ⟨[.primitive 'I'.toNat, .array (.array (.object sampleName))], some (.object sampleName)⟩

theorem spellsField_sample : SpellsField (FieldType.object sampleName).print (some sampleName) :=
  .object (by decide) (by decide)

theorem spellsMethod_sample : SpellsMethod sampleType.print [sampleName, sampleName] :=
  .returning (.cons (.primitive (by decide)) (.cons spellsField_sample.array.array .nil))
    spellsField_sample

theorem not_spellsMethod_half (names : List Name) :
    ¬SpellsMethod (Name.ofString "(La/B;Lp/Q") names := by
  intro h
  obtain ⟨t, hwf, hprint, -⟩ := h.exists_type
  have hparse := MethodType.parse_eq_some.mpr ⟨hwf, hprint⟩
  have hnone : MethodType.parse (Name.ofString "(La/B;Lp/Q") = none := by decide +kernel
  rw [hnone] at hparse
  cases hparse

theorem not_spellsField_numbers (name : Name) :
    ¬SpellsField (Name.ofString "[J") (some name) := by
  intro h
  have hfound := h.ofField_eq
  have hnone : ofField (Name.ofString "[J") = none := by decide +kernel
  rw [hnone] at hfound
  cases hfound

theorem classes_of_spelled_sample :
    sampleType.print = Name.ofString "(I[[La)(V/[B;)La)(V/[B;" ∧
      ofMethod sampleType.print = [Name.ofString "a)(V.[B", Name.ofString "a)(V.[B"] ∧
      ofMethod (Name.ofString "(La/B;Lp/Q") = [] ∧
      ofField (FieldType.object sampleName).print = some (Name.ofString "a)(V.[B") ∧
      ofField (Name.ofString "[J") = none ∧
      ofClass sampleName = ofField ('L'.toNat :: sampleName ++ [';'.toNat]) ∧
      ofClass (Name.ofString "[[I") = ofField (Name.ofString "[[I") := by
  obtain ⟨hmethod, hhalf, hfield, hnone, hclass, harray⟩ := classes_of_spelled
  have hdotted : sampleName.dotted = Name.ofString "a)(V.[B" := by decide +kernel
  rw [← hdotted]
  exact ⟨by decide +kernel, hmethod _ _ spellsMethod_sample, hhalf _ not_spellsMethod_half,
    hfield _ _ spellsField_sample, hnone _ not_spellsField_numbers,
    hclass _ (by decide) (by decide) (by decide), harray _ (by decide)⟩

end Descriptor

end Unjar
