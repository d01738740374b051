import Unjar.Proofs.Xml.Opening
import Unjar.Xml.Doctype

/-!
What the type of a document declares.

The declarations of a document stand in its text.  So entities stand for texts that a document may
hold, and the values that attributes have by declaration are such texts.  The name of an attribute
that is declared is looked at less closely than one in a tag: what stands behind a colon consists of
characters of names but need not be a name.

Main definitions:

* `Unjar.Xml.IsDeclaredName` — the names of attributes that are declared;
* `Unjar.Xml.Mark.IsSound`, `Unjar.Xml.Doctype.IsSound` — what declarations are like.

Main results:

* `Unjar.Xml.isSound_of_readMarks?` — the words and signs of a declaration;
* `Unjar.Xml.Doctype.isSound_of_read?` — **a declaration of the type**.
-/

set_option autoImplicit false

namespace Unjar.Xml

/-! ### Words and signs -/

/-- **The name of an attribute** as it may be declared: behind a colon there may stand any characters
of names. -/
def IsDeclaredName (t : Text) : Prop :=
  isName t = true ∨
    ∃ p n, t = p ++ ':' :: n ∧ isName p = true ∧ n ≠ [] ∧ ∀ c ∈ n, isNameCharacter c = true

theorem IsDeclaredName.of_isQualifiedName {t : Text} (h : isQualifiedName t = true) :
    IsDeclaredName t := by
  rcases isQualifiedName_iff.mp h with h | ⟨p, n, rfl, hp, hn⟩
  · exact .inl h
  · refine .inr ⟨p, n, rfl, hp, ?_, (isName_iff.mp hn).2⟩
    rintro rfl
    cases hn

/-- **A word or sign of a declaration** in a text that a document may hold. -/
def Mark.IsSound : Mark → Prop
  | name t | prefixed t => IsDeclaredName t
  | quoted t => IsContent t
  | _ => True

section

variable {t rest : Text} {mark : Mark}

theorem isSound_wordMark (t : Text) : (wordMark t).IsSound := by
  unfold wordMark
  split
  · split
    · next h => exact .inl h
    · trivial
  · next p n hcut =>
    split
    · next h =>
      simp only [Bool.and_eq_true, Bool.not_eq_true', List.isEmpty_eq_false_iff,
        List.all_eq_true] at h
      exact .inr ⟨p, n, cutAtFirst_eq_some hcut, h.1.1, h.1.2, h.2⟩
    · trivial

theorem sound_of_readWord? (ht : IsContent t) (h : readWord? t = some (mark, rest)) :
    mark.IsSound ∧ IsContent rest := by
  have hd : IsContent (t.dropWhile isQualifiedCharacter) :=
    ht.subset (List.dropWhile_sublist _).subset
  have hword := isSound_wordMark (t.takeWhile isQualifiedCharacter)
  unfold readWord? at h
  dsimp only at h
  split at h
  · cases h
  · split at h
    · split at h
      · cases h
        exact ⟨trivial, hd⟩
      · cases h
    · next c more heq _ =>
      split at h
      · cases h
        rw [heq, isContent_cons] at hd
        exact ⟨trivial, hd.2⟩
      · split at h
        · cases h
          exact ⟨hword, heq ▸ hd⟩
        · cases h
    · cases h

theorem sound_of_readQuoted? {quote : Char} (ht : IsContent t)
    (h : readQuoted? quote t = some (mark, rest)) : mark.IsSound ∧ IsContent rest := by
  simp only [readQuoted?, Option.bind_eq_bind, Option.bind_eq_some_iff, Prod.exists,
    Option.ite_none_right_eq_some, Option.some.injEq, Prod.mk.injEq] at h
  obtain ⟨content, after, hcut, -, rfl, rfl⟩ := h
  rw [cutAtFirst_eq_some hcut, isContent_append, isContent_cons] at ht
  exact ⟨ht.1, ht.2.2⟩

theorem sound_of_readKeyword? (ht : IsContent t) (h : readKeyword? t = some (mark, rest)) :
    mark.IsSound ∧ IsContent rest := by
  simp only [readKeyword?, Option.ite_none_right_eq_some, Option.some.injEq, Prod.mk.injEq] at h
  obtain ⟨-, rfl, rfl⟩ := h
  exact ⟨trivial, ht.subset (List.dropWhile_sublist _).subset⟩

theorem sound_of_readClosing? (ht : IsContent t) (h : readClosing? t = some (mark, rest)) :
    mark.IsSound ∧ IsContent rest := by
  unfold readClosing? at h
  split at h
  · split at h
    · cases h
      exact ⟨trivial, (isContent_cons.mp ht).2⟩
    · split at h
      · cases h
        exact ⟨trivial, ht⟩
      · cases h
  · cases h

theorem sound_of_readMark? (ht : IsContent t) (h : readMark? t = some (mark, rest)) :
    mark.IsSound ∧ IsContent rest := by
  unfold readMark? at h
  split at h
  · cases h
  · next c r =>
    have hr := (isContent_cons.mp ht).2
    split at h
    · exact sound_of_readQuoted? hr h
    · split at h
      · exact sound_of_readKeyword? hr h
      · split at h
        · exact sound_of_readClosing? hr h
        · split at h
          · split at h
            · cases h
              exact ⟨trivial, hr⟩
            · cases h
          · split at h
            · cases h
              exact ⟨trivial, hr⟩
            · exact sound_of_readWord? ht h

theorem isSound_of_readMarks? {stops : List Char} {marks : List Mark} {c : Char}
    (ht : IsContent t) (h : readMarks? stops t = some (marks, c, rest)) :
    (∀ mark ∈ marks, mark.IsSound) ∧ IsContent rest := by
  fun_induction readMarks? stops t generalizing marks with
  | case1 => cases h
  | case2 t mark rest' hread _ c' hc =>
      cases h
      exact ⟨fun _ hmark => absurd hmark List.not_mem_nil,
        (sound_of_readMark? ht.dropSpaces hread).2⟩
  | case3 t mark rest' hread _ hc ih =>
      obtain ⟨⟨more, c', r⟩, hmore, heq⟩ := Option.map_eq_some_iff.mp h
      cases heq
      obtain ⟨hmark, hrest⟩ := sound_of_readMark? ht.dropSpaces hread
      obtain ⟨hmarks, hcontent⟩ := ih hrest hmore
      exact ⟨List.forall_mem_cons.mpr ⟨hmark, hmarks⟩, hcontent⟩

end

/-! ### Declarations -/

namespace Doctype

/-- **What a document may declare.** -/
structure IsSound (d : Doctype) : Prop where
  texts : d.entities.IsSound
  names : ∀ a ∈ d.attributes, IsDeclaredName a.attributeName
  values : ∀ a ∈ d.attributes, ∀ t, a.default = some t → IsContent t

section

variable {d d' : Doctype} {t rest : Text} {marks : List Mark}

theorem isSound_empty (standsAlone : Bool) : (empty standsAlone).IsSound where
  texts := fun _ _ h => absurd h List.not_mem_nil
  names := fun _ h => absurd h List.not_mem_nil
  values := fun _ h => absurd h List.not_mem_nil

theorem subset_joinWith {sep : Text} {parts : List Text} {c : Char} (h : c ∈ joinWith sep parts) :
    c ∈ sep ∨ ∃ part ∈ parts, c ∈ part := by
  fun_induction joinWith sep parts with
  | case1 => cases h
  | case2 piece => exact .inr ⟨piece, List.mem_cons_self, h⟩
  | case3 piece pieces hne ih =>
      rcases List.mem_append.mp h with h | h
      · rcases List.mem_append.mp h with h | h
        · exact .inr ⟨piece, List.mem_cons_self, h⟩
        · exact .inl h
      · rcases ih h with h | ⟨part, hpart, h⟩
        · exact .inl h
        · exact .inr ⟨part, List.mem_cons_of_mem _ hpart, h⟩

theorem isContent_squeezeBlanks (h : IsContent t) : IsContent (squeezeBlanks t) := by
  intro c hc
  rcases subset_joinWith hc with hc | ⟨part, hpart, hc⟩
  · rw [List.mem_singleton] at hc
    rw [hc]
    rfl
  · exact h c (subset_of_mem_splitOn (List.mem_of_mem_filter hpart) hc)

theorem IsSound.attributeValue? (hd : d.IsSound) {keepsBlanks : Bool} {pieces : List Piece}
    (hpieces : ∀ piece ∈ pieces, piece.IsContent)
    (h : d.attributeValue? keepsBlanks pieces = some t) : IsContent t := by
  obtain ⟨value, hvalue, rfl⟩ := Option.map_eq_some_iff.mp h
  have hcontent := Entities.isContent_of_attributeText? hd.texts hpieces hvalue
  split
  · exact hcontent
  · exact isContent_squeezeBlanks hcontent

/-! ### Entities -/

theorem isContent_of_entityText? {text : Text} (ht : IsContent t) (h : entityText? t = some text) :
    IsContent text := by
  unfold entityText? at h
  split at h
  · cases h
  · obtain ⟨pieces, hpieces, rfl⟩ := Option.map_eq_some_iff.mp h
    intro c hc
    obtain ⟨piece, hpiece, hc⟩ := List.mem_flatMap.mp hc
    have hcontent := Piece.isContent_of_ofText? ht hpieces piece hpiece
    cases piece with
    | plain c' =>
        rw [entityPiece, List.mem_singleton] at hc
        exact hc ▸ hcontent
    | referred c' =>
        rw [entityPiece, List.mem_singleton] at hc
        exact hc ▸ hcontent
    | entity name =>
        simp only [entityPiece, List.mem_cons, List.mem_append, List.not_mem_nil, or_false] at hc
        rcases hc with (rfl | hc) | rfl
        · rfl
        · exact hcontent c hc
        · rfl

theorem IsSound.declare (hd : d.IsSound) {name : Text} {text : Option Text}
    (htext : ∀ t, text = some t → IsContent t) : (d.declare name text).IsSound := by
  unfold Doctype.declare
  split
  · exact hd
  · refine ⟨fun name' t ht => ?_, hd.names, hd.values⟩
    rcases OrderedMap.mem_putNew ht with ht | ht
    · exact hd.texts name' t ht
    · exact htext t (congrArg Prod.snd ht).symm

theorem IsSound.declareEntity? (hd : d.IsSound) (hmarks : ∀ mark ∈ marks, mark.IsSound)
    (h : d.declareEntity? marks = some d') : d'.IsSound := by
  have hunnamed : ∀ name, (d.declare name none).IsSound := fun name => hd.declare (by simp)
  unfold Doctype.declareEntity? at h
  split at h
  · split at h
    · obtain ⟨text, -, rfl⟩ := Option.map_eq_some_iff.mp h
      exact hd
    · cases h
      exact hd
  · split at h
    · cases h
      exact hd
    · cases h
  · next name t =>
    split at h
    · obtain ⟨text, htext, rfl⟩ := Option.map_eq_some_iff.mp h
      have ht : IsContent t := hmarks (.quoted t) (by simp)
      refine hd.declare fun t' ht' => ?_
      cases ht'
      exact isContent_of_entityText? ht htext
    · cases h
      exact hd
  · next name more _ =>
    have hdeclared : (if d.isRead then d.declare name none else d).IsSound := by
      split
      · exact hunnamed name
      · exact hd
    dsimp only at h
    split at h
    · cases h
      exact hdeclared
    · split at h
      · cases h
        exact hdeclared
      · cases h
    · cases h
  · cases h

/-! ### Attributes -/

theorem IsSound.addAttribute (hd : d.IsSound) {a : AttributeDeclaration}
    (hname : IsDeclaredName a.attributeName) (hvalue : ∀ t, a.default = some t → IsContent t) :
    (d.addAttribute a).IsSound := by
  unfold Doctype.addAttribute
  split
  · exact hd
  · refine ⟨hd.texts, ?_, ?_⟩
    · exact List.forall_mem_append.mpr ⟨hd.names, List.forall_mem_singleton.mpr hname⟩
    · exact List.forall_mem_append.mpr ⟨hd.values, List.forall_mem_singleton.mpr hvalue⟩

theorem IsSound.declareAttribute? (hd : d.IsSound) {element name : Text} {keepsBlanks : Bool}
    {default : Option Text} (hname : IsDeclaredName name)
    (hdefault : ∀ t, default = some t → IsContent t)
    (h : d.declareAttribute? element name keepsBlanks default = some d') : d'.IsSound := by
  unfold Doctype.declareAttribute? at h
  split at h
  · cases h
    exact hd
  · split at h
    · cases h
      exact hd.addAttribute hname (by simp)
    · next t =>
      obtain ⟨pieces, hpieces, h⟩ := Option.bind_eq_some_iff.mp h
      obtain ⟨value, hvalue, h⟩ := Option.bind_eq_some_iff.mp h
      cases h
      refine hd.addAttribute hname fun t' ht' => ?_
      cases ht'
      exact hd.attributeValue? (Piece.isContent_of_read? (hdefault t rfl) hpieces) hvalue

/-- The attribute whose declaration is being read has a name. -/
def AttributeState.IsSound : AttributeState → Prop
  | .ready => True
  | .named name | .notations name | .part name _ | .rest name _ | .typed name _ | .fixed name _ =>
    IsDeclaredName name

theorem isSound_behindType? {name : Text} {mark : Mark} {state : AttributeState}
    (hname : IsDeclaredName name) (h : behindType? name mark = some state) : state.IsSound := by
  unfold behindType? at h
  split at h
  · split at h
    · cases h
      exact hname
    · split at h
      · cases h
        exact hname
      · split at h
        · cases h
          exact hname
        · cases h
  · cases h
    exact hname
  · cases h

theorem isSound_behindPart? {name : Text} {isNotation : Bool} {mark : Mark}
    {state : AttributeState} (hname : IsDeclaredName name)
    (h : behindPart? name isNotation mark = some state) : state.IsSound := by
  unfold behindPart? at h
  split at h
  · cases h
    exact hname
  · split at h
    · cases h
    · cases h
      exact hname
  · split at h
    · cases h
    · cases h
      exact hname
  · cases h

theorem IsSound.declareAttributes? {element : Text} {state : AttributeState} (hd : d.IsSound)
    (hstate : state.IsSound) (hmarks : ∀ mark ∈ marks, mark.IsSound)
    (h : declareAttributes? element state d marks = some d') : d'.IsSound := by
  fun_induction Doctype.declareAttributes? element state d marks with
  | case1 =>
      cases h
      exact hd
  | case3 d more name ih =>
      exact ih hd (hmarks (.name name) List.mem_cons_self)
        (fun mark hmark => hmarks mark (List.mem_cons_of_mem _ hmark)) h
  | case4 d more name ih =>
      exact ih hd (hmarks (.prefixed name) List.mem_cons_self)
        (fun mark hmark => hmarks mark (List.mem_cons_of_mem _ hmark)) h
  | case6 d mark more name ih =>
      obtain ⟨state, hbehind, h⟩ := Option.bind_eq_some_iff.mp h
      exact ih state hd (isSound_behindType? hstate hbehind)
        (fun mark hmark => hmarks mark (List.mem_cons_of_mem _ hmark)) h
  | case9 d mark more name isNotation ih =>
      obtain ⟨state, hbehind, h⟩ := Option.bind_eq_some_iff.mp h
      exact ih state hd (isSound_behindPart? hstate hbehind)
        (fun mark hmark => hmarks mark (List.mem_cons_of_mem _ hmark)) h
  | case7 d mark more name _ ih | case10 d mark more name isNotation _ ih
  | case11 d mark more name isNotation _ _ ih | case13 d more name keepsBlanks word _ ih =>
      exact ih hd hstate (fun mark hmark => hmarks mark (List.mem_cons_of_mem _ hmark)) h
  | case14 d more name keepsBlanks word _ _ ih =>
      obtain ⟨d₁, hd₁, h⟩ := Option.bind_eq_some_iff.mp h
      exact ih d₁ (hd.declareAttribute? hstate (by simp) hd₁) trivial
        (fun mark hmark => hmarks mark (List.mem_cons_of_mem _ hmark)) h
  | case16 d more name keepsBlanks t ih | case18 d more name keepsBlanks t ih =>
      obtain ⟨d₁, hd₁, h⟩ := Option.bind_eq_some_iff.mp h
      have ht : IsContent t := hmarks (.quoted t) List.mem_cons_self
      refine ih d₁ (hd.declareAttribute? hstate (fun t' ht' => ?_) hd₁) trivial
        (fun mark hmark => hmarks mark (List.mem_cons_of_mem _ hmark)) h
      cases ht'
      exact ht
  | case2 | case5 | case8 | case12 | case15 | case17 | case19 => cases h

theorem IsSound.declareAttributeList? (hd : d.IsSound) (hmarks : ∀ mark ∈ marks, mark.IsSound)
    (h : d.declareAttributeList? marks = some d') : d'.IsSound := by
  have hready : AttributeState.ready.IsSound := trivial
  unfold Doctype.declareAttributeList? at h
  split at h
  · exact hd.declareAttributes? hready (List.forall_mem_cons.mp hmarks).2 h
  · exact hd.declareAttributes? hready (List.forall_mem_cons.mp hmarks).2 h
  · cases h

/-! ### The declaration of a type -/

theorem IsSound.declare? (hd : d.IsSound) {keyword : Text} (hmarks : ∀ mark ∈ marks, mark.IsSound)
    (h : d.declare? keyword marks = some d') : d'.IsSound := by
  unfold Doctype.declare? at h
  split at h
  · exact hd.declareEntity? hmarks h
  · split at h
    · exact hd.declareAttributeList? hmarks h
    · split at h
      · unfold Doctype.declareElement? at h
        split at h
        · split at h
          · cases h
            exact hd
          · cases h
        · split at h
          · cases h
            exact hd
          · cases h
        · cases h
      · split at h
        · unfold Doctype.declareNotation? at h
          split at h
          · split at h
            · cases h
              exact hd
            · cases h
          · split at h
            · cases h
              exact hd
            · cases h
          · cases h
        · cases h

theorem IsSound.readPart? (hd : d.IsSound) (ht : IsContent t)
    (h : d.readPart? t = some (d', rest)) : d'.IsSound ∧ IsContent rest := by
  unfold Doctype.readPart? at h
  split at h
  · next r =>
    simp only [readParameter?, Option.bind_eq_bind, Option.pure_def, Option.bind_eq_some_iff,
      Prod.exists, Option.ite_none_right_eq_some, Option.some.injEq, Prod.mk.injEq] at h
    obtain ⟨name, after, hcut, -, rfl, rfl⟩ := h
    have hr := (isContent_cons.mp ht).2
    rw [cutAtFirst_eq_some hcut, isContent_append, isContent_cons] at hr
    exact ⟨⟨hd.texts, hd.names, hd.values⟩, hr.2.2⟩
  · obtain ⟨after, hafter, heq⟩ := Option.map_eq_some_iff.mp h
    cases heq
    simp only [isContent_cons] at ht
    exact ⟨hd, isContent_of_afterInstruction? ht.2.2 hafter⟩
  · obtain ⟨after, hafter, heq⟩ := Option.map_eq_some_iff.mp h
    cases heq
    simp only [isContent_cons] at ht
    exact ⟨hd, isContent_of_afterComment? ht.2.2.2.2 hafter⟩
  · next r _ =>
    simp only [isContent_cons] at ht
    unfold Doctype.readDeclaration? at h
    dsimp only at h
    split at h
    · cases h
    · obtain ⟨⟨marks, c, after⟩, hmarks, h⟩ := Option.bind_eq_some_iff.mp h
      obtain ⟨d₁, hd₁, h⟩ := Option.bind_eq_some_iff.mp h
      cases h
      obtain ⟨hsound, hafter⟩ :=
        isSound_of_readMarks? (ht.2.2.subset (List.dropWhile_sublist _).subset) hmarks
      exact ⟨hd.declare? hsound hd₁, hafter⟩
  · cases h

theorem IsSound.readSubset? (hd : d.IsSound) (ht : IsContent t)
    (h : d.readSubset? t = some (d', rest)) : d'.IsSound ∧ IsContent rest := by
  fun_induction Doctype.readSubset? d t with
  | case1 d t r hs =>
      cases h
      have hr := hs ▸ ht.dropSpaces
      exact ⟨hd, (isContent_cons.mp hr).2⟩
  | case2 => cases h
  | case3 d t d₁ r _ hread _ ih =>
      obtain ⟨hd₁, hr⟩ := hd.readPart? ht.dropSpaces hread
      exact ih hd₁ hr h

theorem IsSound.readHeader? (hd : d.IsSound) (h : d.readHeader? marks = some d') : d'.IsSound := by
  have hpartial : ({ d with isPartial := true } : Doctype).IsSound := ⟨hd.texts, hd.names, hd.values⟩
  unfold Doctype.readHeader? at h
  split at h
  all_goals
    first
    | cases h
    | split at h
      · cases h
        exact hd
      · split at h
        · cases h
          exact hpartial
        · cases h

/-- **A declaration of the type.** -/
theorem isSound_of_read? (hd : d.IsSound) (ht : IsContent t) (h : d.read? t = some (d', rest)) :
    d'.IsSound ∧ IsContent rest := by
  unfold Doctype.read? at h
  dsimp only at h
  split at h
  · cases h
  · obtain ⟨⟨marks, stop, after⟩, hmarks, h⟩ := Option.bind_eq_some_iff.mp h
    obtain ⟨d₁, hd₁, h⟩ := Option.bind_eq_some_iff.mp h
    obtain ⟨hsound, hafter⟩ := isSound_of_readMarks? ht hmarks
    have hheader := hd.readHeader? hd₁
    split at h
    · cases h
      exact ⟨hheader, hafter⟩
    · obtain ⟨⟨d₂, after₂⟩, hsubset, h⟩ := Option.bind_eq_some_iff.mp h
      obtain ⟨rest', hrest, h⟩ := Option.bind_eq_some_iff.mp h
      cases h
      obtain ⟨hd₂, hafter₂⟩ := hheader.readSubset? hafter hsubset
      have hclosing := hafter₂.dropSpaces
      rw [dropPrefix?_eq_some hrest, isContent_append] at hclosing
      exact ⟨hd₂, hclosing.2⟩

end

end Doctype

end Unjar.Xml
