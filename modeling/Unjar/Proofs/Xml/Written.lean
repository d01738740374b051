import Unjar.Proofs.Xml.Character
import Unjar.Xml.Markup
import Unjar.Xml.Writer

/-!
What is written, cut into tokens.

A character that could be taken for markup is written as a reference, and the reference is read as
that character.  So the texts and the values of a tree come back from what is written as lists of
pieces, and the tags come back under the names under which they are written; comments leave no
trace.  A tree is read as its tokens one behind the other, whatever follows it.

Main definitions:

* `Unjar.Xml.textPieces`, `Unjar.Xml.attributePieces` — how texts and values are read back;
* `Unjar.Xml.IsRemark` — what a comment may hold;
* `Unjar.Xml.nodeTokens` — the tokens of a tree;
* `Unjar.Xml.Writable` — trees under whose names markup can be read.

Main results:

* `Unjar.Xml.read?_escapeText`, `Unjar.Xml.read?_escapeAttribute` — **references undo escapes**;
* `Unjar.Xml.tokens?_writeNode` — **the tokens of a tree** that is written.
-/

set_option autoImplicit false

namespace Unjar.Xml

/-! ### References -/

namespace Piece

theorem ofText?_cons {c : Char} {t : Text} (hc : c ≠ '&') :
    ofText? (c :: t) = (ofText? t).map (plain c :: ·) := by
  have hmem : '&' ∉ [c] := by simpa using Ne.symm hc
  cases ht : splitOn '&' t with
  | nil => exact absurd ht splitOn_ne_nil
  | cons first others =>
      have hsplit : splitOn '&' (c :: t) = (c :: first) :: others := splitOn_append hmem ht
      unfold ofText?
      rw [hsplit, ht]
      dsimp only
      cases others.mapM behindAmpersand? <;> rfl

theorem ofText?_reference {name t : Text} {piece : Piece} (hampersand : '&' ∉ name)
    (hsemicolon : ';' ∉ name) (h : ofReference? name = some piece) :
    ofText? ('&' :: (name ++ ';' :: t)) = (ofText? t).map (piece :: ·) := by
  cases ht : splitOn '&' t with
  | nil => exact absurd ht splitOn_ne_nil
  | cons first others =>
      have hmem : '&' ∉ name ++ [';'] := by simpa using hampersand
      have hinner : splitOn '&' (name ++ ';' :: t) = (name ++ ';' :: first) :: others := by
        have hsplit := splitOn_append hmem ht
        rwa [List.append_assoc, List.append_assoc] at hsplit
      have hsplit : splitOn '&' ('&' :: (name ++ ';' :: t)) =
          [] :: (name ++ ';' :: first) :: others := by
        rw [splitOn, if_pos (beq_self_eq_true _), hinner]
      have hbehind : behindAmpersand? (name ++ ';' :: first) = some (piece :: first.map plain) := by
        rw [behindAmpersand?, cutAtFirst_append first hsemicolon]
        simp [h]
      unfold ofText?
      rw [hsplit, ht]
      dsimp only
      rw [List.mapM_cons, hbehind]
      cases others.mapM behindAmpersand? <;> simp

/-- How one character is written and what it is read back as: either as itself, or as a reference
that is resolved to it. -/
def Codes (code : Char → Text) (c : Char) (piece : Piece) : Prop :=
  (code c = [c] ∧ c ≠ '&' ∧ piece = plain c) ∨
    ∃ name found, code c = '&' :: (name ++ [';']) ∧ '&' ∉ name ∧ ';' ∉ name ∧
      ofReference? name = some found ∧ found.resolveBuiltIn = piece

/-- A text whose characters are written one by one is read back one by one. -/
theorem read?_flatMap {code : Char → Text} {pieceOf : Char → Piece}
    (h : ∀ c, Codes code c (pieceOf c)) (t : Text) :
    read? (t.flatMap code) = some (t.map pieceOf) := by
  induction t with
  | nil => rfl
  | cons c t ih =>
      obtain ⟨pieces, hpieces, hmap⟩ := Option.map_eq_some_iff.mp ih
      rw [List.flatMap_cons, read?]
      rcases h c with ⟨hcode, hc, hpiece⟩ | ⟨name, found, hcode, hampersand, hsemicolon, hfound,
        hpiece⟩
      · rw [hcode, List.singleton_append, ofText?_cons hc, hpieces]
        simp [hpiece, hmap, resolveBuiltIn]
      · rw [hcode, List.cons_append, List.append_assoc, List.singleton_append,
          ofText?_reference hampersand hsemicolon hfound, hpieces]
        simp [hpiece, hmap]

end Piece

/-! ### Texts and values -/

/-- The piece as which a character of a text is read back. -/
def textPiece (c : Char) : Piece :=
  if c = '&' ∨ c = '<' ∨ c = '>' then .referred c else .plain c

/-- The piece as which a character of a value is read back. -/
def attributePiece (c : Char) : Piece :=
  if c = '"' ∨ c = '\r' ∨ c = '\n' ∨ c = '\t' then .referred c else textPiece c

theorem codes_textPiece (c : Char) : Piece.Codes escapeTextCharacter c (textPiece c) := by
  unfold Piece.Codes escapeTextCharacter
  split
  · exact .inr ⟨"amp".toList, .entity "amp".toList, by decide⟩
  · exact .inr ⟨"lt".toList, .entity "lt".toList, by decide⟩
  · exact .inr ⟨"gt".toList, .entity "gt".toList, by decide⟩
  · next hamp hlt hgt => exact .inl ⟨rfl, hamp, if_neg (by tauto)⟩

/-- **References undo the escapes of a text.** -/
theorem read?_escapeText (t : Text) : Piece.read? (escapeText t) = some (t.map textPiece) :=
  Piece.read?_flatMap codes_textPiece t

theorem codes_attributePiece (c : Char) :
    Piece.Codes escapeAttributeCharacter c (attributePiece c) := by
  unfold Piece.Codes escapeAttributeCharacter
  split
  · exact .inr ⟨"quot".toList, .entity "quot".toList, by decide⟩
  · exact .inr ⟨"#13".toList, .referred '\r', by decide⟩
  · exact .inr ⟨"#10".toList, .referred '\n', by decide⟩
  · exact .inr ⟨"#09".toList, .referred '\t', by decide⟩
  · next hquote hreturn hfeed htab =>
    have hpiece : attributePiece c = textPiece c := if_neg (by tauto)
    rw [hpiece]
    exact codes_textPiece c

/-- **References undo the escapes of a value.** -/
theorem read?_escapeAttribute (t : Text) :
    Piece.read? (escapeAttribute t) = some (t.map attributePiece) :=
  Piece.read?_flatMap codes_attributePiece t

/-! ### Tags -/

/-- Attributes by the names under which they are written. -/
abbrev WrittenAttributes := List (Text × Text)

/-- Attributes as they are written, each with a blank in front of it. -/
def writeAll (attributes : WrittenAttributes) : Text :=
  attributes.flatMap fun (name, value) =>
    ' ' :: name ++ "=\"".toList ++ escapeAttribute value ++ ['"']

/-- Attributes as they are read back. -/
def rawAttributes (attributes : WrittenAttributes) : List RawAttribute :=
  attributes.map fun (name, value) => (name, value.map attributePiece)

section

variable {name value tag t rest : Text} {attributes : WrittenAttributes}

/-- Of the characters that would be taken for markup, those that are written stand for themselves. -/
theorem eq_of_mem_escapeTextCharacter {c d : Char}
    (hc : c = '<' ∨ c = '>' ∨ c = '"' ∨ c = '\r') (h : c ∈ escapeTextCharacter d) :
    c = d ∧ c ≠ '<' ∧ c ≠ '>' := by
  unfold escapeTextCharacter at h
  split at h
  · rcases hc with rfl | rfl | rfl | rfl <;> revert h <;> decide
  · rcases hc with rfl | rfl | rfl | rfl <;> revert h <;> decide
  · rcases hc with rfl | rfl | rfl | rfl <;> revert h <;> decide
  · next _ hlt hgt =>
    obtain rfl := List.mem_singleton.mp h
    exact ⟨rfl, hlt, hgt⟩

/-- Angle brackets are not written within texts. -/
theorem not_mem_escapeText {c : Char} (hc : c = '<' ∨ c = '>') : c ∉ escapeText t := by
  intro hmem
  obtain ⟨d, -, hd⟩ := List.mem_flatMap.mp hmem
  obtain ⟨-, hlt, hgt⟩ := eq_of_mem_escapeTextCharacter (by tauto) hd
  exact hc.elim hlt hgt

/-- Neither angle brackets nor quotes nor line ends are written within values. -/
theorem not_mem_escapeAttribute {c : Char} (hc : c = '<' ∨ c = '>' ∨ c = '"' ∨ c = '\r') :
    c ∉ escapeAttribute t := by
  intro hmem
  obtain ⟨d, -, hd⟩ := List.mem_flatMap.mp hmem
  unfold escapeAttributeCharacter at hd
  split at hd
  · rcases hc with rfl | rfl | rfl | rfl <;> revert hd <;> decide
  · rcases hc with rfl | rfl | rfl | rfl <;> revert hd <;> decide
  · rcases hc with rfl | rfl | rfl | rfl <;> revert hd <;> decide
  · rcases hc with rfl | rfl | rfl | rfl <;> revert hd <;> decide
  · next hquote hreturn _ _ =>
    obtain ⟨rfl, hlt, hgt⟩ := eq_of_mem_escapeTextCharacter hc hd
    tauto

theorem readAttribute?_append (hname : isQualifiedName name = true) (value rest : Text) :
    readAttribute? (name ++ ("=\"".toList ++ (escapeAttribute value ++ '"' :: rest))) =
      some ((name, value.map attributePiece), rest) := by
  have hends : EndsName ("=\"".toList ++ (escapeAttribute value ++ '"' :: rest)) := by
    intro c hc
    cases hc
    decide
  have hcut : cutAtFirst '"' (escapeAttribute value ++ '"' :: rest) =
      some (escapeAttribute value, rest) :=
    cutAtFirst_append rest (not_mem_escapeAttribute (by simp))
  have hlt : '<' ∉ escapeAttribute value := not_mem_escapeAttribute (by simp)
  unfold readAttribute?
  rw [takeWhile_qualified hname hends, dropWhile_qualified hname hends]
  simp only [hname, Bool.not_true, Bool.false_eq_true, if_false, Option.bind_eq_bind]
  have hspaces : dropSpaces ("=\"".toList ++ (escapeAttribute value ++ '"' :: rest)) =
      '=' :: '"' :: (escapeAttribute value ++ '"' :: rest) := rfl
  have hquote : dropSpaces ('"' :: (escapeAttribute value ++ '"' :: rest)) =
      '"' :: (escapeAttribute value ++ '"' :: rest) := rfl
  rw [hspaces]
  simp [hquote, hcut, hlt, read?_escapeAttribute]

theorem readTagEnd?_of_close (hs : dropSpaces t = '>' :: rest) :
    readTagEnd? t = some ⟨[], false, rest⟩ := by
  rw [readTagEnd?]
  split <;> rename_i heq <;> rw [hs] at heq <;> cases heq
  · rfl
  · next hclose _ => exact absurd rfl hclose

theorem readTagEnd?_of_closeEmpty (hs : dropSpaces t = '/' :: '>' :: rest) :
    readTagEnd? t = some ⟨[], true, rest⟩ := by
  rw [readTagEnd?]
  split <;> rename_i heq <;> rw [hs] at heq <;> cases heq
  · rfl
  · next hempty => exact absurd rfl (hempty rest rfl)

theorem readTagEnd?_of_readAttribute? {c : Char} {r : Text} {a : RawAttribute}
    (hs : dropSpaces t = c :: r) (hclose : c ≠ '>') (hslash : c ≠ '/')
    (hlength : (c :: r).length ≠ t.length) (ha : readAttribute? (c :: r) = some (a, rest)) :
    readTagEnd? t =
      (readTagEnd? rest).map fun found => { found with attributes := a :: found.attributes } := by
  rw [readTagEnd?]
  split <;> rename_i heq <;> rw [hs] at heq <;> cases heq
  · exact absurd rfl hclose
  · exact absurd rfl hslash
  · rw [if_neg hlength]
    split
    · next hnone =>
      rw [ha] at hnone
      cases hnone
    · next a' rest' hsome =>
      rw [ha] at hsome
      cases hsome
      rfl

/-- The attributes of a tag, in front of what else belongs to it. -/
theorem readTagEnd?_writeAll {found : TagEnd}
    (hnames : ∀ a ∈ attributes, isQualifiedName a.1 = true) (h : readTagEnd? t = some found) :
    readTagEnd? (writeAll attributes ++ t) =
      some { found with attributes := rawAttributes attributes ++ found.attributes } := by
  induction attributes with
  | nil => exact h
  | cons a attributes ih =>
      obtain ⟨name, value⟩ := a
      rw [List.forall_mem_cons] at hnames
      have hread := readAttribute?_append hnames.1 value (writeAll attributes ++ t)
      have hshape : writeAll ((name, value) :: attributes) ++ t =
          ' ' :: (name ++ ("=\"".toList ++ (escapeAttribute value ++ '"' ::
            (writeAll attributes ++ t)))) := by
        simp [writeAll]
      obtain ⟨c, hc, hstart⟩ := head?_of_isQualifiedName hnames.1
      obtain ⟨n, rfl⟩ := List.head?_eq_some_iff.mp hc
      have hspace : isSpace c = false := isSpace_of_isQualifiedCharacter
        (isQualifiedCharacter_of_isNameCharacter (isNameCharacter_of_isNameStart hstart))
      rw [hshape, readTagEnd?_of_readAttribute? ?_ ?_ ?_ ?_ hread, ih hnames.2]
      · rfl
      · show (c :: (n ++ _)).dropWhile isSpace = _
        rw [List.dropWhile_cons_of_neg (by simp [hspace])]
        rfl
      · rintro rfl
        revert hstart
        decide
      · rintro rfl
        revert hstart
        decide
      · simp

/-- A start tag, in front of what comes after it. -/
theorem readTag?_append {isEmpty : Bool} (htag : isQualifiedName tag = true)
    (hnames : ∀ a ∈ attributes, isQualifiedName a.1 = true)
    (h : readTagEnd? t = some ⟨[], isEmpty, rest⟩) (hends : EndsName t) :
    readTag? (tag ++ (writeAll attributes ++ t)) =
      some (if isEmpty then [.startTag tag (rawAttributes attributes), .endTag tag]
        else [.startTag tag (rawAttributes attributes)], rest) := by
  have hendsAll : EndsName (writeAll attributes ++ t) := by
    cases attributes with
    | nil => exact hends
    | cons a attributes =>
        intro c hc
        cases hc
        decide
  unfold readTag?
  rw [takeWhile_qualified htag hendsAll, dropWhile_qualified htag hendsAll,
    readTagEnd?_writeAll hnames h]
  simp [htag]

theorem readMarkup?_of_isQualifiedName (htag : isQualifiedName tag = true) :
    readMarkup? (tag ++ t) = readTag? (tag ++ t) := by
  obtain ⟨c, hc, hstart⟩ := head?_of_isQualifiedName htag
  obtain ⟨n, rfl⟩ := List.head?_eq_some_iff.mp hc
  have hne : ∀ d, isNameStart d = false → c ≠ d := by
    rintro d hd rfl
    rw [hstart] at hd
    cases hd
  have hexclamation := hne '!' (by decide)
  have hquestion := hne '?' (by decide)
  have hslash := hne '/' (by decide)
  have hopening : ∀ start, dropPrefix? ('!' :: start) (c :: n ++ t) = none := by
    intro start
    simp [dropPrefix?, List.isPrefixOf, Ne.symm hexclamation]
  unfold readMarkup?
  rw [show commentOpening = '!' :: "--".toList from rfl, hopening,
    show literalOpening = '!' :: "[CDATA[".toList from rfl, hopening]
  dsimp only
  rw [List.cons_append]
  split
  · next heq => simp_all
  · next heq => simp_all
  · rfl

theorem readMarkup?_endTag (htag : isQualifiedName tag = true) (rest : Text) :
    readMarkup? ('/' :: (tag ++ '>' :: rest)) = some ([.endTag tag], rest) := by
  have hends : EndsName ('>' :: rest) := by
    intro c hc
    cases hc
    decide
  have hmarkup : readMarkup? ('/' :: (tag ++ '>' :: rest)) = readEndTag? (tag ++ '>' :: rest) := rfl
  have hspaces : dropSpaces ('>' :: rest) = '>' :: rest := rfl
  rw [hmarkup, readEndTag?, takeWhile_qualified htag hends, dropWhile_qualified htag hends, hspaces]
  rfl

end

/-! ### Texts between tags -/

/-- The tokens of a text between tags. -/
def textTokens (t : Text) : List Token := if t = [] then [] else [.text (t.map textPiece)]

section

variable {t r rest : Text} {found : List Token}

theorem tokens?_of_readMarkup? (h : readMarkup? r = some (found, rest)) :
    tokens? ('<' :: r) = (tokens? rest).map (found ++ ·) := by
  rw [tokens?]
  split
  · next hnone =>
    rw [h] at hnone
    cases hnone
  · next found' rest' hsome =>
    rw [h] at hsome
    cases hsome
    rfl

theorem tokens?_of_ne {c : Char} (hc : c ≠ '<') (r : Text) :
    tokens? (c :: r) = (textToken? (c :: r.takeWhile (· != '<'))).bind fun token =>
      (tokens? (r.dropWhile (· != '<'))).map (token :: ·) := by
  rw [tokens?]
  · cases textToken? (c :: r.takeWhile (· != '<')) with
    | none => rfl
    | some token => cases tokens? (r.dropWhile (· != '<')) <;> rfl
  · exact hc

theorem escapeText_cons_ne_nil (c : Char) (t : Text) : escapeText (c :: t) ≠ [] := by
  have hne : escapeTextCharacter c ≠ [] := by
    unfold escapeTextCharacter
    split <;> simp
  rw [escapeText, List.flatMap_cons]
  exact fun h => hne (List.append_eq_nil_iff.mp h).1

/-- A start tag in front of what comes after it. -/
theorem tokens?_startTag {tag : Text} {attributes : WrittenAttributes} {isEmpty : Bool}
    (htag : isQualifiedName tag = true) (hnames : ∀ a ∈ attributes, isQualifiedName a.1 = true)
    (h : readTagEnd? t = some ⟨[], isEmpty, rest⟩) (hends : EndsName t) :
    tokens? ('<' :: (tag ++ (writeAll attributes ++ t))) = (tokens? rest).map
      (.startTag tag (rawAttributes attributes) :: (if isEmpty then [.endTag tag] else []) ++ ·) := by
  have hmarkup := readMarkup?_of_isQualifiedName
    (t := writeAll attributes ++ t) htag
  rw [readTag?_append htag hnames h hends] at hmarkup
  rw [tokens?_of_readMarkup? hmarkup]
  cases isEmpty <;> rfl

/-- A text in front of a tag. -/
theorem tokens?_escapeText (t r : Text) :
    tokens? (escapeText t ++ '<' :: r) = (tokens? ('<' :: r)).map (textTokens t ++ ·) := by
  cases t with
  | nil =>
      cases h : tokens? ('<' :: r) <;> simp [escapeText, textTokens, h]
  | cons c t =>
      have hlt : '<' ∉ escapeText (c :: t) := not_mem_escapeText (.inl rfl)
      have hgt : '>' ∉ escapeText (c :: t) := not_mem_escapeText (.inr rfl)
      have hread := read?_escapeText (c :: t)
      obtain ⟨d, u, hshape⟩ := List.exists_cons_of_ne_nil (escapeText_cons_ne_nil c t)
      rw [hshape] at hlt hgt hread ⊢
      have htoken : textToken? (d :: u) = some (.text ((c :: t).map textPiece)) := by
        rw [textToken?, afterFirst?_eq_none (c := '>') (by decide) hgt, hread]
        rfl
      rw [List.mem_cons, not_or] at hlt
      have hall : ∀ e ∈ u, (e != '<') = true := by
        intro e he
        rw [bne_iff_ne]
        rintro rfl
        exact hlt.2 he
      have htake : (u ++ '<' :: r).takeWhile (· != '<') = u := by
        rw [List.takeWhile_append_of_pos hall]
        simp
      have hdrop : (u ++ '<' :: r).dropWhile (· != '<') = '<' :: r := by
        rw [List.dropWhile_append_of_pos hall]
        simp
      rw [List.cons_append, tokens?_of_ne (Ne.symm hlt.1), htake, hdrop, htoken]
      rfl

end

/-! ### Comments -/

/-- **What a comment may hold**: no two hyphens, and none at its end. -/
structure IsRemark (t : Text) : Prop where
  content : IsContent t
  no_return : '\r' ∉ t
  hyphens : ¬"--".toList <:+: t ++ ['-']

/-- A comment in front of what comes after it. -/
theorem tokens?_comment {t : Text} (h : IsRemark t) (rest : Text) :
    tokens? ("<!--".toList ++ t ++ "-->".toList ++ rest) = tokens? rest := by
  have hcut : cutAtPattern "--".toList (t ++ ("--".toList ++ '>' :: rest)) =
      some (t, '>' :: rest) := cutAtPattern_append _ h.hyphens
  have hafter : afterComment? (t ++ ("--".toList ++ '>' :: rest)) = some rest := by
    rw [afterComment?, hcut]
    exact dropPrefix?_append ['>'] rest
  have hmarkup : readMarkup? (commentOpening ++ (t ++ ("--".toList ++ '>' :: rest))) =
      some ([], rest) := by
    unfold readMarkup?
    rw [dropPrefix?_append]
    dsimp only
    rw [hafter]
    rfl
  have htokens := tokens?_of_readMarkup? hmarkup
  have hsame : (fun found : List Token => [] ++ found) = id := rfl
  rw [hsame, Option.map_id, id_eq] at htokens
  rw [← htokens]
  simp [commentOpening]

/-! ### Trees -/

/-- The attributes of a tag, by the names under which they are written. -/
def writtenAttributes (table : Prefixes) (attributes : XmlAttributes) : WrittenAttributes :=
  attributes.map fun (name, value) => (table.qualified name, value)

mutual

/-- **The tokens of a node** that is written with some attributes in front of its own. -/
def nodeTokens (table : Prefixes) (declared : WrittenAttributes) : XmlNode → List Token
  | .comment .. => []
  | .element name attributes text children _ =>
    .startTag (table.qualified name) (rawAttributes (declared ++ writtenAttributes table attributes)) ::
      (textTokens text ++ childrenTokens table children ++ [.endTag (table.qualified name)])

/-- The tokens of children, each with the text behind it. -/
def childrenTokens (table : Prefixes) : List XmlNode → List Token
  | [] => []
  | node :: more =>
    nodeTokens table [] node ++ textTokens node.tail ++ childrenTokens table more

end

/-- **Trees under whose names markup can be read.** -/
inductive Writable (table : Prefixes) : XmlNode → Prop
  | comment {content tail : Text} (hcontent : IsRemark content) :
      Writable table (.comment content tail)
  | element {name : XmlName} {attributes : XmlAttributes} {text tail : Text}
      {children : List XmlNode} (hname : isQualifiedName (table.qualified name) = true)
      (hattributes : ∀ a ∈ attributes, isQualifiedName (table.qualified a.1) = true)
      (hchildren : ∀ child ∈ children, Writable table child) :
      Writable table (.element name attributes text children tail)

section

variable {table : Prefixes} {children : List XmlNode}

theorem writeAttributes_eq (table : Prefixes) (attributes : XmlAttributes) :
    writeAttributes table attributes = writeAll (writtenAttributes table attributes) := by
  rw [writeAttributes, writeAll, writtenAttributes, List.flatMap_map]

theorem writeAll_append (a b : WrittenAttributes) : writeAll (a ++ b) = writeAll a ++ writeAll b :=
  List.flatMap_append

theorem exists_writeNode {node : XmlNode} (h : Writable table node) (declarations : Text) :
    ∃ r, writeNode table declarations node = '<' :: r := by
  cases h with
  | comment => exact ⟨_, rfl⟩
  | element =>
      rw [writeNode]
      split
      · exact ⟨_, rfl⟩
      · exact ⟨_, rfl⟩

/-- Children begin with markup, and so does what stands behind them where there are none. -/
theorem exists_writeChildren (h : ∀ child ∈ children, Writable table child) (rest : Text) :
    ∃ r, writeChildren table children ++ '<' :: rest = '<' :: r := by
  cases children with
  | nil => exact ⟨rest, rfl⟩
  | cons child children =>
      obtain ⟨r, hr⟩ := exists_writeNode (h child List.mem_cons_self) []
      rw [writeChildren, hr]
      exact ⟨_, rfl⟩

/-- The tokens of children, if those of each child are known. -/
theorem tokens?_writeChildren (hwritable : ∀ child ∈ children, Writable table child)
    (hchildren : ∀ child ∈ children, ∀ rest, tokens? (writeNode table [] child ++ rest) =
      (tokens? rest).map (nodeTokens table [] child ++ ·)) (rest : Text) :
    tokens? (writeChildren table children ++ '<' :: rest) =
      (tokens? ('<' :: rest)).map (childrenTokens table children ++ ·) := by
  induction children with
  | nil => cases h : tokens? ('<' :: rest) <;> simp [writeChildren, childrenTokens, h]
  | cons child children ih =>
      rw [List.forall_mem_cons] at hchildren hwritable
      obtain ⟨r, hr⟩ := exists_writeChildren hwritable.2 rest
      rw [writeChildren, List.append_assoc, List.append_assoc, hchildren.1, hr,
        tokens?_escapeText, ← hr, ih hwritable.2 hchildren.2]
      cases tokens? ('<' :: rest) <;> simp [childrenTokens]

/-- **The tokens of a tree** that is written, whatever follows it. -/
theorem tokens?_writeNode {node : XmlNode} (h : Writable table node)
    {declared : WrittenAttributes} (hdeclared : ∀ a ∈ declared, isQualifiedName a.1 = true)
    (rest : Text) :
    tokens? (writeNode table (writeAll declared) node ++ rest) =
      (tokens? rest).map (nodeTokens table declared node ++ ·) := by
  induction h generalizing declared rest with
  | comment hcontent =>
      rw [writeNode, tokens?_comment hcontent]
      simp [nodeTokens]
  | @element name attributes text tail children hname hattributes hchildren ih =>
      have hall : ∀ a ∈ declared ++ writtenAttributes table attributes,
          isQualifiedName a.1 = true := by
        rw [List.forall_mem_append]
        refine ⟨hdeclared, fun a ha => ?_⟩
        obtain ⟨given, hgiven, rfl⟩ := List.mem_map.mp ha
        exact hattributes given hgiven
      have hwritten : writeAttributes table attributes =
          writeAll (writtenAttributes table attributes) := writeAttributes_eq table attributes
      rw [writeNode, hwritten]
      split
      · next hempty =>
        simp only [Bool.and_eq_true, List.isEmpty_iff] at hempty
        obtain ⟨rfl, rfl⟩ := hempty
        have hstart := tokens?_startTag hname hall (readTagEnd?_of_closeEmpty rfl)
          (show EndsName (" />".toList ++ rest) by intro c hc; cases hc; decide)
        rw [writeAll_append] at hstart
        simp only [List.append_assoc, List.cons_append] at hstart ⊢
        rw [hstart]
        simp [nodeTokens, childrenTokens, textTokens]
      · have hchild : ∀ child ∈ children, ∀ rest, tokens? (writeNode table [] child ++ rest) =
            (tokens? rest).map (nodeTokens table [] child ++ ·) := fun child hchild rest =>
          ih child hchild (fun _ ha => absurd ha List.not_mem_nil) rest
        have hinner : tokens? (escapeText text ++ (writeChildren table children ++
            '<' :: '/' :: (table.qualified name ++ '>' :: rest))) =
            (tokens? rest).map fun more => textTokens text ++ (childrenTokens table children ++
              (.endTag (table.qualified name) :: more)) := by
          obtain ⟨r, hr⟩ :=
            exists_writeChildren hchildren ('/' :: (table.qualified name ++ '>' :: rest))
          rw [hr, tokens?_escapeText, ← hr, tokens?_writeChildren hchildren hchild,
            tokens?_of_readMarkup? (readMarkup?_endTag hname rest)]
          cases tokens? rest <;> rfl
        have hstart := tokens?_startTag hname hall (readTagEnd?_of_close rfl)
          (show EndsName ('>' :: (escapeText text ++ (writeChildren table children ++
            '<' :: '/' :: (table.qualified name ++ '>' :: rest)))) by intro c hc; cases hc; decide)
        rw [hinner, writeAll_append] at hstart
        rw [show "</".toList = ['<', '/'] from rfl]
        simp only [List.append_assoc, List.cons_append, List.nil_append] at hstart ⊢
        rw [hstart]
        cases tokens? rest <;> simp [nodeTokens]

end

end Unjar.Xml
