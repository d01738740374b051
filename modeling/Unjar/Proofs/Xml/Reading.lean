import Unjar.Proofs.Xml.Character
import Unjar.Xml.Markup

/-!
What is read from markup.

The text of a document holds characters that it may hold, and so does whatever is read from it: the
pieces of text between tags and of the values of attributes, and the sections of literal text.  Tags
and attributes that are given in markup have names.

Main definitions:

* `Unjar.Xml.Piece.IsContent`, `Unjar.Xml.Token.IsSound` — what pieces and tokens are like.

Main results:

* `Unjar.Xml.Piece.isContent_of_read?` — the pieces of a text;
* `Unjar.Xml.isSound_of_tokens?` — **the tokens of a text**.
-/

set_option autoImplicit false

namespace Unjar.Xml

/-! ### Pieces -/

namespace Piece

/-- **A piece of a text that a document may hold**; what entities stand for is looked up later. -/
def IsContent : Piece → Prop
  | plain c | referred c => isCharacter c = true
  | entity name => Xml.IsContent name

theorem isContent_of_characterOf? {n : Nat} {c : Char} (h : characterOf? n = some c) :
    isCharacter c = true := by
  unfold characterOf? at h
  split at h
  · next hn =>
    cases h
    exact (Bool.and_eq_true _ _ ▸ hn).2
  · cases h

theorem isContent_of_ofReference? {t : Text} {piece : Piece} (h : ofReference? t = some piece) :
    piece.IsContent := by
  unfold ofReference? at h
  split at h
  · obtain ⟨c, hc, rfl⟩ := Option.map_eq_some_iff.mp h
    obtain ⟨n, -, hn⟩ := Option.bind_eq_some_iff.mp hc
    exact isContent_of_characterOf? hn
  · obtain ⟨c, hc, rfl⟩ := Option.map_eq_some_iff.mp h
    obtain ⟨n, -, hn⟩ := Option.bind_eq_some_iff.mp hc
    exact isContent_of_characterOf? hn
  · split at h
    · next hname =>
      cases h
      exact .of_isName hname
    · cases h

theorem isContent_map_plain {t : Text} (h : Xml.IsContent t) :
    ∀ piece ∈ t.map plain, piece.IsContent := by
  intro piece hpiece
  obtain ⟨c, hc, rfl⟩ := List.mem_map.mp hpiece
  exact h c hc

theorem isContent_of_behindAmpersand? {t : Text} {pieces : List Piece} (ht : Xml.IsContent t)
    (h : behindAmpersand? t = some pieces) : ∀ piece ∈ pieces, piece.IsContent := by
  simp only [behindAmpersand?, Option.bind_eq_bind, Option.bind_eq_some_iff, Prod.exists,
    Option.pure_def, Option.some.injEq] at h
  obtain ⟨reference, rest, hcut, piece, hpiece, rfl⟩ := h
  rw [List.forall_mem_cons]
  refine ⟨isContent_of_ofReference? hpiece, isContent_map_plain ?_⟩
  rw [cutAtFirst_eq_some hcut, isContent_append, isContent_cons] at ht
  exact ht.2.2

theorem isContent_of_ofText? {t : Text} {pieces : List Piece} (ht : Xml.IsContent t)
    (h : ofText? t = some pieces) : ∀ piece ∈ pieces, piece.IsContent := by
  unfold ofText? at h
  split at h
  · cases h
    exact fun _ hpiece => absurd hpiece List.not_mem_nil
  · next first others hsplit =>
    have hsub : ∀ part ∈ first :: others, Xml.IsContent part := fun part hpart =>
      ht.subset (subset_of_mem_splitOn (hsplit ▸ hpart))
    rw [List.forall_mem_cons] at hsub
    simp only [Option.bind_eq_bind, Option.bind_eq_some_iff, Option.pure_def,
      Option.some.injEq] at h
    obtain ⟨found, hfound, rfl⟩ := h
    rw [List.forall_mem_append]
    refine ⟨isContent_map_plain hsub.1, fun piece hpiece => ?_⟩
    obtain ⟨part, hpart, hpiece⟩ := List.mem_flatten.mp hpiece
    obtain ⟨text, htext, hread⟩ := exists_of_mem_mapM hfound hpart
    exact isContent_of_behindAmpersand? (hsub.2 text htext) hread piece hpiece

theorem isContent_resolveBuiltIn {piece : Piece} (h : piece.IsContent) :
    piece.resolveBuiltIn.IsContent := by
  unfold resolveBuiltIn
  split
  · next name =>
    split
    · next c hc =>
      have hbuiltIn : ∀ entry ∈ builtInEntities, isCharacter entry.2 = true := by decide
      exact hbuiltIn (name, c) (mem_of_lookup_eq_some hc)
    · exact h
  · exact h

/-- **The pieces of a text** that a document may hold. -/
theorem isContent_of_read? {t : Text} {pieces : List Piece} (ht : Xml.IsContent t)
    (h : read? t = some pieces) : ∀ piece ∈ pieces, piece.IsContent := by
  obtain ⟨found, hfound, rfl⟩ := Option.map_eq_some_iff.mp h
  intro piece hpiece
  obtain ⟨given, hgiven, rfl⟩ := List.mem_map.mp hpiece
  exact isContent_resolveBuiltIn (isContent_of_ofText? ht hfound given hgiven)

end Piece

/-! ### Tags -/

/-- A tag whose attributes and itself have names, and whose values hold what a document may hold. -/
def IsSoundTag (name : Text) (attributes : List RawAttribute) : Prop :=
  isQualifiedName name = true ∧
    ∀ a ∈ attributes, isQualifiedName a.1 = true ∧ ∀ piece ∈ a.2, piece.IsContent

/-- **A token of a text that a document may hold.** -/
def Token.IsSound : Token → Prop
  | startTag name attributes => IsSoundTag name attributes
  | endTag _ => True
  | text pieces => ∀ piece ∈ pieces, piece.IsContent
  | literal content => IsContent content

section

variable {t rest : Text} {found : List Token}

theorem sound_of_readAttribute? {a : RawAttribute} (ht : IsContent t)
    (h : readAttribute? t = some (a, rest)) :
    (isQualifiedName a.1 = true ∧ ∀ piece ∈ a.2, piece.IsContent) ∧ IsContent rest := by
  have hd : IsContent (t.dropWhile isQualifiedCharacter) :=
    ht.subset (List.dropWhile_sublist _).subset
  unfold readAttribute? at h
  simp only [Option.bind_eq_bind, Option.pure_def] at h
  split at h
  · cases h
  · next hname =>
    split at h
    · next r heq =>
      have hr := heq ▸ hd.dropSpaces
      rw [isContent_cons] at hr
      split at h
      · next quote r' heq' =>
        have hr' := heq' ▸ hr.2.dropSpaces
        rw [isContent_cons] at hr'
        split at h
        · cases h
        · simp only [Option.bind_eq_some_iff, Prod.exists] at h
          obtain ⟨value, after, hcut, h⟩ := h
          have hparts := cutAtFirst_eq_some hcut ▸ hr'.2
          rw [isContent_append, isContent_cons] at hparts
          split at h
          · cases h
          · simp only [Option.bind_eq_some_iff, Option.some.injEq, Prod.mk.injEq] at h
            obtain ⟨pieces, hpieces, rfl, rfl⟩ := h
            exact ⟨⟨by simpa using hname, Piece.isContent_of_read? hparts.1 hpieces⟩, hparts.2.2⟩
      · cases h
    · cases h

theorem sound_of_readTagEnd? {found : TagEnd} (ht : IsContent t)
    (h : readTagEnd? t = some found) :
    (∀ a ∈ found.attributes, isQualifiedName a.1 = true ∧ ∀ piece ∈ a.2, piece.IsContent) ∧
      IsContent found.rest := by
  have hs := ht.dropSpaces
  fun_induction readTagEnd? t generalizing found with
  | case1 => cases h
  | case2 t r hr =>
      cases h
      rw [hr, isContent_cons] at hs
      exact ⟨fun _ ha => absurd ha List.not_mem_nil, hs.2⟩
  | case3 t r hr =>
      cases h
      rw [hr, isContent_cons, isContent_cons] at hs
      exact ⟨fun _ ha => absurd ha List.not_mem_nil, hs.2.2⟩
  | case4 => cases h
  | case5 => cases h
  | case6 t c r _ _ hr _ a rest ha _ ih =>
      obtain ⟨inner, hinner, rfl⟩ := Option.map_eq_some_iff.mp h
      obtain ⟨hsound, hrest⟩ := sound_of_readAttribute? (hr ▸ hs) ha
      obtain ⟨hmore, hcontent⟩ := ih hrest hinner hrest.dropSpaces
      rw [List.forall_mem_cons]
      exact ⟨⟨hsound, hmore⟩, hcontent⟩

theorem sound_of_readTag? (ht : IsContent t) (h : readTag? t = some (found, rest)) :
    (∀ token ∈ found, token.IsSound) ∧ IsContent rest := by
  simp only [readTag?, Option.bind_eq_bind, Option.pure_def] at h
  split at h
  · cases h
  · next hname =>
    simp only [Option.bind_eq_some_iff, Option.some.injEq, Prod.mk.injEq] at h
    obtain ⟨inner, hinner, rfl, rfl⟩ := h
    obtain ⟨hattributes, hrest⟩ :=
      sound_of_readTagEnd? (ht.subset (List.dropWhile_sublist _).subset) hinner
    have htag : (Token.startTag (t.takeWhile isQualifiedCharacter) inner.attributes).IsSound :=
      ⟨by simpa using hname, hattributes⟩
    refine ⟨?_, hrest⟩
    split
    · rw [List.forall_mem_cons, List.forall_mem_singleton]
      exact ⟨htag, trivial⟩
    · rw [List.forall_mem_singleton]
      exact htag

/-! ### Markup -/

theorem isContent_of_afterComment? (ht : IsContent t) (h : afterComment? t = some rest) :
    IsContent rest := by
  simp only [afterComment?, Option.bind_eq_bind, Option.bind_eq_some_iff, Prod.exists] at h
  obtain ⟨before, after, hcut, hdrop⟩ := h
  rw [cutAtPattern_eq_some hcut, dropPrefix?_eq_some hdrop] at ht
  simp only [isContent_append] at ht
  exact ht.2.2

theorem isContent_of_afterInstruction? (ht : IsContent t) (h : afterInstruction? t = some rest) :
    IsContent rest := by
  have hd : IsContent (t.dropWhile isNameCharacter) := ht.subset (List.dropWhile_sublist _).subset
  unfold afterInstruction? at h
  simp only [Option.bind_eq_bind] at h
  split at h
  · cases h
  · split at h
    · next more heq =>
      cases h
      rw [heq, isContent_cons, isContent_cons] at hd
      exact hd.2.2
    · next c more _ heq =>
      rw [heq, isContent_cons] at hd
      split at h
      · obtain ⟨⟨before, after⟩, hcut, rfl⟩ := Option.map_eq_some_iff.mp h
        have hmore := hd.2
        rw [cutAtPattern_eq_some hcut] at hmore
        simp only [isContent_append] at hmore
        exact hmore.2
      · cases h
    · cases h

theorem sound_of_readEndTag? (ht : IsContent t) (h : readEndTag? t = some (found, rest)) :
    (∀ token ∈ found, token.IsSound) ∧ IsContent rest := by
  simp only [readEndTag?, Option.bind_eq_bind, Option.pure_def, Option.bind_eq_some_iff,
    Option.some.injEq, Prod.mk.injEq] at h
  obtain ⟨r, hr, rfl, rfl⟩ := h
  have hd : IsContent (dropSpaces (t.dropWhile isQualifiedCharacter)) :=
    (ht.subset (List.dropWhile_sublist _).subset).dropSpaces
  rw [dropPrefix?_eq_some hr, isContent_append] at hd
  exact ⟨List.forall_mem_singleton.mpr trivial, hd.2⟩

theorem sound_of_readLiteral? (ht : IsContent t) (h : readLiteral? t = some (found, rest)) :
    (∀ token ∈ found, token.IsSound) ∧ IsContent rest := by
  obtain ⟨⟨content, after⟩, hcut, heq⟩ := Option.map_eq_some_iff.mp h
  cases heq
  rw [cutAtPattern_eq_some hcut] at ht
  simp only [isContent_append] at ht
  exact ⟨List.forall_mem_singleton.mpr ht.1.1, ht.2⟩

theorem sound_of_readMarkup? (ht : IsContent t) (h : readMarkup? t = some (found, rest)) :
    (∀ token ∈ found, token.IsSound) ∧ IsContent rest := by
  have hnil : ∀ token ∈ ([] : List Token), token.IsSound :=
    fun _ htoken => absurd htoken List.not_mem_nil
  unfold readMarkup? at h
  split at h
  · next r hr =>
    obtain ⟨after, hafter, heq⟩ := Option.map_eq_some_iff.mp h
    cases heq
    rw [dropPrefix?_eq_some hr, isContent_append] at ht
    exact ⟨hnil, isContent_of_afterComment? ht.2 hafter⟩
  · split at h
    · next r hr =>
      rw [dropPrefix?_eq_some hr, isContent_append] at ht
      exact sound_of_readLiteral? ht.2 h
    · split at h
      · obtain ⟨after, hafter, heq⟩ := Option.map_eq_some_iff.mp h
        cases heq
        exact ⟨hnil, isContent_of_afterInstruction? (isContent_cons.mp ht).2 hafter⟩
      · exact sound_of_readEndTag? (isContent_cons.mp ht).2 h
      · exact sound_of_readTag? ht h

end

/-- **The tokens of a text** that a document may hold. -/
theorem isSound_of_tokens? {t : Text} {found : List Token} (ht : IsContent t)
    (h : tokens? t = some found) : ∀ token ∈ found, token.IsSound := by
  fun_induction tokens? t generalizing found with
  | case1 =>
      cases h
      exact fun _ htoken => absurd htoken List.not_mem_nil
  | case2 => cases h
  | case3 r inner rest hmarkup _ ih =>
      obtain ⟨more, hmore, rfl⟩ := Option.map_eq_some_iff.mp h
      obtain ⟨hinner, hrest⟩ := sound_of_readMarkup? (isContent_cons.mp ht).2 hmarkup
      rw [List.forall_mem_append]
      exact ⟨hinner, ih hrest hmore⟩
  | case4 c r hc ih =>
      rw [isContent_cons] at ht
      simp only [Option.bind_eq_bind, Option.bind_eq_some_iff, Option.pure_def,
        Option.some.injEq] at h
      obtain ⟨token, htoken, more, hmore, rfl⟩ := h
      rw [List.forall_mem_cons]
      refine ⟨?_, ih (ht.2.subset (List.dropWhile_sublist _).subset) hmore⟩
      unfold textToken? at htoken
      split at htoken
      · cases htoken
      · obtain ⟨pieces, hpieces, rfl⟩ := Option.map_eq_some_iff.mp htoken
        refine Piece.isContent_of_read? (isContent_cons.mpr ⟨ht.1, ?_⟩) hpieces
        exact ht.2.subset (List.takeWhile_sublist _).subset

end Unjar.Xml
