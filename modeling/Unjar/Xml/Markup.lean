import Unjar.Xml.Reference

/-!
Markup.

The text of a document is cut into tags, text between them, and sections of literal text; comments
and processing instructions leave no trace.  Nothing is looked up here: names are not resolved, end
tags are not matched, and references are left in place.

Main definitions:

* `Unjar.Xml.Token` — what markup consists of;
* `Unjar.Xml.afterComment?`, `Unjar.Xml.afterInstruction?` — what is passed over;
* `Unjar.Xml.readTag?` — a start tag with its attributes;
* `Unjar.Xml.tokens?` — the tokens of a text.
-/

set_option autoImplicit false

namespace Unjar.Xml

/-- An attribute as it is written: its name and the pieces of its value. -/
abbrev RawAttribute := Text × List Piece

/-- **What markup consists of.** -/
inductive Token where
  | startTag (name : Text) (attributes : List RawAttribute)
  /-- An end tag; an empty element has one too. -/
  | endTag (name : Text)
  /-- Text between tags. -/
  | text (pieces : List Piece)
  /-- A section in which markup is not looked for. -/
  | literal (content : Text)
deriving DecidableEq, Repr

/-! ### What is passed over -/

/-- What follows a comment that has been opened.  Two hyphens have to close it. -/
def afterComment? (t : Text) : Option Text := do
  let (_, rest) ← cutAtPattern "--".toList t
  dropPrefix? ['>'] rest

/-- Whether a name is reserved: `xml` in any case. -/
def isReservedTarget (name : Text) : Bool := name.map Char.toLower == "xml".toList

/-- What follows a processing instruction that has been opened. -/
def afterInstruction? (t : Text) : Option Text := do
  let name := t.takeWhile isNameCharacter
  let rest := t.dropWhile isNameCharacter
  if !isName name || isReservedTarget name then none
  match rest with
  | '?' :: '>' :: more => some more
  | c :: more => if isSpace c then (cutAtPattern "?>".toList more).map Prod.snd else none
  | [] => none

theorem length_dropWhile_le {α : Type} (p : α → Bool) (l : List α) :
    (l.dropWhile p).length ≤ l.length := (List.dropWhile_sublist p).length_le

theorem length_of_afterComment? {t rest : Text} (h : afterComment? t = some rest) :
    rest.length ≤ t.length := by
  simp only [afterComment?, Option.bind_eq_bind, Option.bind_eq_some_iff, Prod.exists] at h
  obtain ⟨before, after, h₁, h₂⟩ := h
  exact Nat.le_trans (length_le_of_dropPrefix? h₂) (length_le_of_cutAtPattern h₁)

theorem length_of_afterInstruction? {t rest : Text} (h : afterInstruction? t = some rest) :
    rest.length ≤ t.length := by
  have hd := length_dropWhile_le isNameCharacter t
  unfold afterInstruction? at h
  generalize t.dropWhile isNameCharacter = d at h hd
  simp only [Option.bind_eq_bind] at h
  split at h
  · simp at h
  · split at h
    · simp only [Option.some.injEq] at h
      subst h
      simp at hd
      omega
    · split at h
      · simp only [Option.map_eq_some_iff, Prod.exists] at h
        obtain ⟨before, after, h₁, rfl⟩ := h
        have := length_le_of_cutAtPattern h₁
        simp at hd
        omega
      · simp at h
    · simp at h

/-! ### Tags -/

/-- A name, an equals sign and a value in quotes, and what follows them. -/
def readAttribute? (t : Text) : Option (RawAttribute × Text) := do
  let name := t.takeWhile isQualifiedCharacter
  if !isQualifiedName name then none
  match dropSpaces (t.dropWhile isQualifiedCharacter) with
  | '=' :: r =>
    match dropSpaces r with
    | quote :: r =>
      if quote != '"' && quote != '\'' then none
      else do
        let (value, rest) ← cutAtFirst quote r
        if value.contains '<' then none
        let pieces ← Piece.read? value
        pure ((name, pieces), rest)
    | [] => none
  | _ => none

theorem length_dropSpaces_le (t : Text) : (dropSpaces t).length ≤ t.length :=
  length_dropWhile_le isSpace t

theorem length_of_readAttribute? {t rest : Text} {a : RawAttribute}
    (h : readAttribute? t = some (a, rest)) : rest.length < t.length := by
  have hd := length_dropWhile_le isQualifiedCharacter t
  unfold readAttribute? at h
  generalize t.dropWhile isQualifiedCharacter = d at h hd
  simp only [Option.bind_eq_bind, Option.pure_def] at h
  split at h
  · simp at h
  · have hs := length_dropSpaces_le d
    split at h
    · next r heq =>
      have hr := length_dropSpaces_le r
      split at h
      · next quote r' heq' =>
        split at h
        · simp at h
        · simp only [Option.bind_eq_some_iff, Prod.exists] at h
          obtain ⟨value, after, h₁, h₂⟩ := h
          split at h₂
          · simp at h₂
          · simp only [Option.bind_eq_some_iff, Option.some.injEq, Prod.mk.injEq] at h₂
            obtain ⟨pieces, _, _, rfl⟩ := h₂
            have := length_of_cutAtFirst h₁
            rw [heq] at hs
            rw [heq'] at hr
            simp at hs hr
            omega
      · simp at h
    · simp at h

/-- How a tag goes on behind its name. -/
structure TagEnd where
  attributes : List RawAttribute
  /-- Whether the element ends with the tag. -/
  isEmpty : Bool
  /-- What follows the tag. -/
  rest : Text

/-- The attributes of a tag and its end.  White space has to stand in front of every attribute. -/
def readTagEnd? (t : Text) : Option TagEnd :=
  match hr : dropSpaces t with
  | [] => none
  | '>' :: r => some ⟨[], false, r⟩
  | '/' :: '>' :: r => some ⟨[], true, r⟩
  | c :: r =>
    if (c :: r).length = t.length then none
    else match ha : readAttribute? (c :: r) with
      | none => none
      | some (a, rest) =>
        have : rest.length < t.length := by
          have h₁ := length_of_readAttribute? ha
          have h₂ := length_dropSpaces_le t
          rw [hr] at h₂
          omega
        (readTagEnd? rest).map fun found => { found with attributes := a :: found.attributes }
termination_by t.length

theorem length_of_readTagEnd? {t : Text} {found : TagEnd} (h : readTagEnd? t = some found) :
    found.rest.length < t.length := by
  fun_induction readTagEnd? t generalizing found with
  | case1 => simp at h
  | case2 t r hr =>
    have := length_dropSpaces_le t
    simp only [Option.some.injEq] at h
    subst h
    simp [hr] at this ⊢
    omega
  | case3 t r hr =>
    have := length_dropSpaces_le t
    simp only [Option.some.injEq] at h
    subst h
    simp [hr] at this ⊢
    omega
  | case4 => simp at h
  | case5 => simp at h
  | case6 t c r hr _ _ _ a rest ha hlt ih =>
    simp only [Option.map_eq_some_iff] at h
    obtain ⟨inner, hi, rfl⟩ := h
    have := ih hi
    simp only
    omega

/-- What follows the opening of a start tag: the tag, with the end tag of an empty element. -/
def readTag? (t : Text) : Option (List Token × Text) := do
  let name := t.takeWhile isQualifiedCharacter
  if !isQualifiedName name then none
  let found ← readTagEnd? (t.dropWhile isQualifiedCharacter)
  let start := Token.startTag name found.attributes
  pure (if found.isEmpty then [start, .endTag name] else [start], found.rest)

/-- What follows the opening of an end tag. -/
def readEndTag? (t : Text) : Option (List Token × Text) := do
  let name := t.takeWhile isQualifiedCharacter
  let rest ← dropPrefix? ['>'] (dropSpaces (t.dropWhile isQualifiedCharacter))
  pure ([.endTag name], rest)

/-- What follows the opening of a section of literal text. -/
def readLiteral? (t : Text) : Option (List Token × Text) :=
  (cutAtPattern "]]>".toList t).map fun (content, rest) => ([.literal content], rest)

/-- What opens a comment, behind its angle bracket. -/
def commentOpening : Text := "!--".toList

/-- What opens a section of literal text, behind its angle bracket. -/
def literalOpening : Text := "![CDATA[".toList

/-- The tokens of what follows an opening angle bracket, and what comes after. -/
def readMarkup? (t : Text) : Option (List Token × Text) :=
  match dropPrefix? commentOpening t with
  | some r => (afterComment? r).map fun rest => ([], rest)
  | none =>
    match dropPrefix? literalOpening t with
    | some r => readLiteral? r
    | none =>
      match t with
      | '?' :: r => (afterInstruction? r).map fun rest => ([], rest)
      | '/' :: r => readEndTag? r
      | t => readTag? t

theorem length_of_readTag? {t rest : Text} {found : List Token}
    (h : readTag? t = some (found, rest)) : rest.length ≤ t.length := by
  have hd := length_dropWhile_le isQualifiedCharacter t
  simp only [readTag?, Option.bind_eq_bind, Option.pure_def] at h
  split at h
  · simp at h
  · simp only [Option.bind_eq_some_iff, Option.some.injEq, Prod.mk.injEq] at h
    obtain ⟨inner, hi, _, rfl⟩ := h
    have := length_of_readTagEnd? hi
    omega

theorem length_of_readEndTag? {t rest : Text} {found : List Token}
    (h : readEndTag? t = some (found, rest)) : rest.length ≤ t.length := by
  simp only [readEndTag?, Option.bind_eq_bind, Option.pure_def, Option.bind_eq_some_iff,
    Option.some.injEq, Prod.mk.injEq] at h
  obtain ⟨r, hr, _, rfl⟩ := h
  have h₁ := length_le_of_dropPrefix? hr
  have h₂ := length_dropSpaces_le (t.dropWhile isQualifiedCharacter)
  have h₃ := length_dropWhile_le isQualifiedCharacter t
  omega

theorem length_of_readLiteral? {t rest : Text} {found : List Token}
    (h : readLiteral? t = some (found, rest)) : rest.length ≤ t.length := by
  simp only [readLiteral?, Option.map_eq_some_iff, Prod.mk.injEq, Prod.exists] at h
  obtain ⟨content, after, h₁, _, rfl⟩ := h
  exact length_le_of_cutAtPattern h₁

theorem length_of_readMarkup? {t rest : Text} {found : List Token}
    (h : readMarkup? t = some (found, rest)) : rest.length ≤ t.length := by
  unfold readMarkup? at h
  split at h
  · next r hr =>
    simp only [Option.map_eq_some_iff, Prod.mk.injEq] at h
    obtain ⟨after, h₁, _, rfl⟩ := h
    exact Nat.le_trans (length_of_afterComment? h₁) (length_le_of_dropPrefix? hr)
  · split at h
    · next r hr =>
      exact Nat.le_trans (length_of_readLiteral? h) (length_le_of_dropPrefix? hr)
    · split at h
      · simp only [Option.map_eq_some_iff, Prod.mk.injEq] at h
        obtain ⟨after, h₁, _, rfl⟩ := h
        exact Nat.le_succ_of_le (length_of_afterInstruction? h₁)
      · exact Nat.le_succ_of_le (length_of_readEndTag? h)
      · exact length_of_readTag? h

/-! ### Tokens -/

/-- What closes a section of literal text, and may not stand outside one. -/
def literalClosing : Text := "]]>".toList

/-- Text between tags. -/
def textToken? (t : Text) : Option Token :=
  if (afterFirst? literalClosing t).isSome then none else (Piece.read? t).map .text

/-- **The tokens of a text.** -/
def tokens? : Text → Option (List Token)
  | [] => some []
  | '<' :: r =>
    match h : readMarkup? r with
    | none => none
    | some (found, rest) =>
      have : rest.length < r.length + 1 := Nat.lt_succ_of_le (length_of_readMarkup? h)
      (tokens? rest).map (found ++ ·)
  | c :: r => do
    let token ← textToken? (c :: r.takeWhile (· != '<'))
    have : (r.dropWhile (· != '<')).length < r.length + 1 :=
      Nat.lt_succ_of_le (length_dropWhile_le _ r)
    let more ← tokens? (r.dropWhile (· != '<'))
    pure (token :: more)
termination_by t => t.length

end Unjar.Xml
