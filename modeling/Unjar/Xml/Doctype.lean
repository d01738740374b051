import Unjar.Xml.Entity

/-!
Document types.

A document may begin with a declaration of its type, within which entities and the attributes of
elements are declared.  Declarations outside the document are not read.  A reference to a parameter
entity therefore leaves open what else is declared, and behind it declarations count only in a
document that says that it stands alone.

Main definitions:

* `Unjar.Xml.Mark`, `Unjar.Xml.readMarks?` — the words and signs of a declaration;
* `Unjar.Xml.Doctype` — what is declared;
* `Unjar.Xml.Doctype.read?` — a declaration of the type, and what follows it.
-/

set_option autoImplicit false

namespace Unjar.Xml

/-! ### Words and signs -/

/-- **A word or sign of a declaration.** -/
inductive Mark where
  /-- A name without a colon. -/
  | name (t : Text)
  /-- A name with one colon in it. -/
  | prefixed (t : Text)
  /-- A word of name characters that is no name. -/
  | word (t : Text)
  /-- A name with a sign for its number behind it. -/
  | counted (t : Text)
  /-- A name behind a hash sign. -/
  | keyword (t : Text)
  | quoted (t : Text)
  | sign (c : Char)
  /-- A closing parenthesis with a sign for its number behind it. -/
  | closing (c : Char)
deriving DecidableEq, Repr

/-- Whether a text begins with white space or one of the given signs. -/
def isFollowedBy (signs : List Char) (t : Text) : Bool :=
  t.head?.any fun c => isSpace c || signs.contains c

/-- The kind of a word of name characters and colons. -/
def wordMark (t : Text) : Mark :=
  match cutAtFirst ':' t with
  | none => if isName t then .name t else .word t
  | some (before, after) =>
    if isName before && !after.isEmpty && after.all isNameCharacter then .prefixed t else .word t

/-- The signs for the number of what stands before them. -/
def isCount (c : Char) : Bool := c == '?' || c == '*' || c == '+'

/-- A word, and what follows it. -/
def readWord? (t : Text) : Option (Mark × Text) :=
  let word := t.takeWhile isQualifiedCharacter
  let rest := t.dropWhile isQualifiedCharacter
  if word.isEmpty then none
  else match wordMark word, rest with
    | .word _, _ =>
      if isFollowedBy ['>', ')', ',', '|', '[', '%'] rest then some (.word word, rest) else none
    | mark, c :: more =>
      if isCount c then some (.counted word, more)
      else if isFollowedBy ['>', ')', ',', '|', '[', '%'] rest then some (mark, rest) else none
    | _, [] => none

/-- A text whose opening quote has been read, and what follows it. -/
def readQuoted? (quote : Char) (t : Text) : Option (Mark × Text) := do
  let (content, rest) ← cutAtFirst quote t
  if isFollowedBy ['>', '%', '['] rest then some (.quoted content, rest) else none

/-- A keyword whose hash sign has been read, and what follows it. -/
def readKeyword? (t : Text) : Option (Mark × Text) :=
  let word := t.takeWhile isNameCharacter
  let rest := t.dropWhile isNameCharacter
  if isName word && isFollowedBy [')', '>', '%', '|'] rest then some (.keyword word, rest) else none

/-- What follows a closing parenthesis, which is part of the mark if it tells a number. -/
def readClosing? (t : Text) : Option (Mark × Text) :=
  match t with
  | c :: more =>
    if isCount c then some (.closing c, more)
    else if isFollowedBy ['>', ',', '|', ')'] t then some (.sign ')', t) else none
  | [] => none

/-- A word or sign, and what follows it. -/
def readMark? (t : Text) : Option (Mark × Text) :=
  match t with
  | [] => none
  | c :: r =>
    if c == '"' || c == '\'' then readQuoted? c r
    else if c == '#' then readKeyword? r
    else if c == ')' then readClosing? r
    else if c == '%' then if (r.head?.any isSpace) then some (.sign '%', r) else none
    else if ['>', '(', ',', '|', '['].contains c then some (.sign c, r)
    else readWord? t

theorem length_of_readWord? {t rest : Text} {mark : Mark} (h : readWord? t = some (mark, rest)) :
    rest.length < t.length := by
  unfold readWord? at h
  have hs : (t.takeWhile isQualifiedCharacter).length + (t.dropWhile isQualifiedCharacter).length =
      t.length := by
    rw [← List.length_append, List.takeWhile_append_dropWhile]
  generalize t.takeWhile isQualifiedCharacter = word at h hs
  generalize t.dropWhile isQualifiedCharacter = d at h hs
  cases word with
  | nil => simp at h
  | cons w ws =>
    simp only [List.length_cons] at hs
    simp only [List.isEmpty_cons, Bool.false_eq_true, if_false] at h
    split at h
    · split at h
      · simp only [Option.some.injEq, Prod.mk.injEq] at h
        obtain ⟨_, rfl⟩ := h
        omega
      · simp at h
    · split at h
      · simp only [Option.some.injEq, Prod.mk.injEq] at h
        obtain ⟨_, rfl⟩ := h
        simp only [List.length_cons] at hs
        omega
      · split at h
        · simp only [Option.some.injEq, Prod.mk.injEq] at h
          obtain ⟨_, rfl⟩ := h
          omega
        · simp at h
    · simp at h

theorem length_of_readQuoted? {quote : Char} {t rest : Text} {mark : Mark}
    (h : readQuoted? quote t = some (mark, rest)) : rest.length ≤ t.length := by
  simp only [readQuoted?, Option.bind_eq_bind, Option.bind_eq_some_iff, Prod.exists,
    Option.ite_none_right_eq_some, Option.some.injEq, Prod.mk.injEq] at h
  obtain ⟨content, after, h₁, _, _, rfl⟩ := h
  have := length_of_cutAtFirst h₁
  omega

theorem length_of_readKeyword? {t rest : Text} {mark : Mark}
    (h : readKeyword? t = some (mark, rest)) : rest.length ≤ t.length := by
  simp only [readKeyword?, Option.ite_none_right_eq_some, Option.some.injEq, Prod.mk.injEq] at h
  obtain ⟨_, _, rfl⟩ := h
  exact length_dropWhile_le _ _

theorem length_of_readClosing? {t rest : Text} {mark : Mark}
    (h : readClosing? t = some (mark, rest)) : rest.length ≤ t.length := by
  unfold readClosing? at h
  split at h
  · split at h
    · simp only [Option.some.injEq, Prod.mk.injEq] at h
      obtain ⟨_, rfl⟩ := h
      simp
    · split at h
      · simp only [Option.some.injEq, Prod.mk.injEq] at h
        obtain ⟨_, rfl⟩ := h
        simp
      · simp at h
  · simp at h

theorem length_of_readMark? {t rest : Text} {mark : Mark} (h : readMark? t = some (mark, rest)) :
    rest.length < t.length := by
  unfold readMark? at h
  split at h
  · simp at h
  · next c r =>
    split at h
    · exact Nat.lt_succ_of_le (length_of_readQuoted? h)
    · split at h
      · exact Nat.lt_succ_of_le (length_of_readKeyword? h)
      · split at h
        · exact Nat.lt_succ_of_le (length_of_readClosing? h)
        · split at h
          · split at h
            · simp only [Option.some.injEq, Prod.mk.injEq] at h
              obtain ⟨_, rfl⟩ := h
              simp
            · simp at h
          · split at h
            · simp only [Option.some.injEq, Prod.mk.injEq] at h
              obtain ⟨_, rfl⟩ := h
              simp
            · exact length_of_readWord? h

/-- The marks up to one of the given signs, that sign, and what follows it. -/
def readMarks? (stops : List Char) (t : Text) : Option (List Mark × Char × Text) :=
  match h : readMark? (dropSpaces t) with
  | none => none
  | some (mark, rest) =>
    have : rest.length < t.length :=
      Nat.lt_of_lt_of_le (length_of_readMark? h) (length_dropSpaces_le t)
    match stops.find? fun c => mark == .sign c with
    | some c => some ([], c, rest)
    | none => (readMarks? stops rest).map fun (marks, c, rest) => (mark :: marks, c, rest)
termination_by t.length

theorem length_of_readMarks? {stops : List Char} {t : Text} {marks : List Mark} {c : Char}
    {rest : Text} (h : readMarks? stops t = some (marks, c, rest)) : rest.length < t.length := by
  fun_induction readMarks? stops t generalizing marks with
  | case1 => simp at h
  | case2 t mark rest' hm hlt c' hc =>
    simp only [Option.some.injEq, Prod.mk.injEq] at h
    obtain ⟨_, _, rfl⟩ := h
    exact hlt
  | case3 t mark rest' hm hlt hc ih =>
    simp only [Option.map_eq_some_iff, Prod.mk.injEq, Prod.exists] at h
    obtain ⟨ms, c', r, h₁, _, rfl, rfl⟩ := h
    have := ih h₁
    omega

/-! ### What is declared -/

/-- The declaration of an attribute of an element. -/
structure AttributeDeclaration where
  /-- The name of the element. -/
  element : Text
  attributeName : Text
  /-- Whether blanks within the value are kept as they are. -/
  keepsBlanks : Bool
  /-- The value where none is given. -/
  default : Option Text
deriving DecidableEq, Repr

/-- **What the type of a document declares.** -/
structure Doctype where
  /-- Whether the document says that it stands alone. -/
  standsAlone : Bool
  /-- Whether declarations outside the document have been passed over. -/
  isPartial : Bool
  /-- Whether further declarations count. -/
  isRead : Bool
  /-- The entities. -/
  texts : OrderedMap Text (Option Text)
  /-- The attributes, in the order of their declarations. -/
  attributes : List AttributeDeclaration
deriving Repr

namespace Doctype

/-- The type of a document that declares nothing. -/
def empty (standsAlone : Bool) : Doctype := ⟨standsAlone, false, true, [], []⟩

/-- The entities declared. -/
def entities (d : Doctype) : Entities := ⟨d.texts, d.isPartial && !d.standsAlone⟩

def declarationOf? (d : Doctype) (element attributeName : Text) : Option AttributeDeclaration :=
  d.attributes.find? fun a => a.element == element && a.attributeName == attributeName

/-- A text without the blanks at its ends, and with single ones within. -/
def squeezeBlanks (t : Text) : Text :=
  joinWith [' '] ((splitOn ' ' t).filter fun part => !part.isEmpty)

def attributeValue? (d : Doctype) (keepsBlanks : Bool) (pieces : List Piece) : Option Text :=
  (d.entities.attributeText? pieces).map fun t => if keepsBlanks then t else squeezeBlanks t

/-! ### Declarations -/

/-- The characters of public identifiers. -/
def isPublicCharacter (c : Char) : Bool :=
  c.isAlphanum || " \n\r-'()+,./:=?;!*#@$_%".toList.contains c

/-- Whether a text is a public identifier. -/
def isPublicId (t : Text) : Bool := t.all isPublicCharacter

/-- The marks behind the identifier of something that is kept outside the document. -/
def afterExternalId? : List Mark → Option (List Mark)
  | .name how :: .quoted first :: more =>
    if how == "SYSTEM".toList then some more
    else if how == "PUBLIC".toList && isPublicId first then
      match more with
      | .quoted _ :: more => some more
      | _ => none
    else none
  | _ => none

/-- A piece of the text of an entity: entities within it are looked up where it is used. -/
def entityPiece : Piece → Text
  | .plain c => [c]
  | .referred c => [c]
  | .entity name => '&' :: name ++ [';']

/-- The text of an entity that is declared by a text in quotes. -/
def entityText? (t : Text) : Option Text :=
  if t.contains '%' then none else (Piece.ofText? t).map (·.flatMap entityPiece)

/-- One more entity: the first declaration counts, and the built-in entities stay as they are. -/
def declare (d : Doctype) (name : Text) (text : Option Text) : Doctype :=
  if (builtInEntities.lookup name).isSome then d else { d with texts := d.texts.putNew name text }

def declareEntity? (d : Doctype) : List Mark → Option Doctype
  | [.sign '%', .name _, .quoted t] =>
    if d.isRead then (entityText? t).map fun _ => d else some d
  | .sign '%' :: .name _ :: more => if afterExternalId? more == some [] then some d else none
  | [.name name, .quoted t] =>
    if d.isRead then (entityText? t).map fun t => d.declare name (some t) else some d
  | .name name :: more =>
    let declared := if d.isRead then d.declare name none else d
    match afterExternalId? more with
    | some [] => some declared
    | some [.name word, .name _] => if word == "NDATA".toList then some declared else none
    | _ => none
  | _ => none

def declareNotation? (d : Doctype) : List Mark → Option Doctype
  | [.name _, .name how, .quoted first] =>
    if how == "SYSTEM".toList || (how == "PUBLIC".toList && isPublicId first) then some d else none
  | .name _ :: more => if afterExternalId? more == some [] then some d else none
  | _ => none

/-! ### Contents of elements -/

/-- A sign between the parts of a group agrees with those before it. -/
def agrees (c : Char) (groups : List (Option Char)) : Option (List (Option Char)) :=
  match groups with
  | [] => none
  | first :: outer => if first.all (· == c) then some (some c :: outer) else none

mutual

/-- Whether marks complete the groups that are open, where a part has to come first. -/
def isPart (groups : List (Option Char)) : List Mark → Bool
  | .sign '(' :: more => isPart (none :: groups) more
  | .name _ :: more | .prefixed _ :: more | .counted _ :: more => isRest groups more
  | _ => false

/-- Whether marks complete the groups that are open, a part having been read. -/
def isRest (groups : List (Option Char)) : List Mark → Bool
  | .sign ')' :: more | .closing _ :: more =>
    match groups with
    | [] => false
    | [_] => more.isEmpty
    | _ :: outer => isRest outer more
  | .sign c :: more =>
    if c == ',' || c == '|' then
      match agrees c groups with
      | some groups => isPart groups more
      | none => false
    else false
  | _ => false

end

/-- Whether marks complete a group of text and elements, where a sign has to come first. -/
def isMixedRest : List Mark → Bool
  | [.closing '*'] => true
  | .sign '|' :: .name _ :: more | .sign '|' :: .prefixed _ :: more => isMixedRest more
  | _ => false

/-- Whether marks describe the content of an element. -/
def isContentModel : List Mark → Bool
  | [.name word] => word == "EMPTY".toList || word == "ANY".toList
  | .sign '(' :: .keyword word :: more =>
    word == "PCDATA".toList && (more == [.sign ')'] || isMixedRest more)
  | .sign '(' :: more => isPart [none] more
  | _ => false

def declareElement? (d : Doctype) : List Mark → Option Doctype
  | .name _ :: more | .prefixed _ :: more => if isContentModel more then some d else none
  | _ => none

/-! ### Attributes -/

/-- How far the declaration of an attribute has been read. -/
inductive AttributeState where
  /-- A name comes next, or the end. -/
  | ready
  /-- The type comes next. -/
  | named (name : Text)
  /-- The group of notations comes next. -/
  | notations (name : Text)
  /-- A part of a group comes next; it has to be a name if it tells a notation. -/
  | part (name : Text) (isNotation : Bool)
  /-- A part of a group has been read. -/
  | rest (name : Text) (isNotation : Bool)
  /-- The default comes next. -/
  | typed (name : Text) (keepsBlanks : Bool)
  /-- The only value comes next. -/
  | fixed (name : Text) (keepsBlanks : Bool)

/-- The types of attributes whose values are names or words. -/
def wordTypes : List Text :=
  ["ID", "IDREF", "IDREFS", "ENTITY", "ENTITIES", "NMTOKEN", "NMTOKENS"].map String.toList

def behindType? (name : Text) : Mark → Option AttributeState
  | .name word =>
    if word == "CDATA".toList then some (.typed name true)
    else if wordTypes.contains word then some (.typed name false)
    else if word == "NOTATION".toList then some (.notations name)
    else none
  | .sign '(' => some (.part name false)
  | _ => none

/-- The state behind a part of a group. -/
def behindPart? (name : Text) (isNotation : Bool) : Mark → Option AttributeState
  | .name _ => some (.rest name isNotation)
  | .prefixed _ | .word _ => if isNotation then none else some (.rest name isNotation)
  | _ => none

/-- One more attribute: the first declaration counts. -/
def addAttribute (d : Doctype) (a : AttributeDeclaration) : Doctype :=
  if (d.declarationOf? a.element a.attributeName).isSome then d
  else { d with attributes := d.attributes ++ [a] }

/-- The declaration of an attribute, if declarations count. -/
def declareAttribute? (d : Doctype) (element name : Text) (keepsBlanks : Bool)
    (default : Option Text) : Option Doctype :=
  if !d.isRead then some d
  else match default with
    | none => some (d.addAttribute ⟨element, name, keepsBlanks, none⟩)
    | some t => do
      let value ← d.attributeValue? keepsBlanks (← Piece.read? t)
      pure (d.addAttribute ⟨element, name, keepsBlanks, some value⟩)

def declareAttributes? (element : Text) (state : AttributeState) (d : Doctype) :
    List Mark → Option Doctype
  | [] => match state with
    | .ready => some d
    | _ => none
  | mark :: more =>
    match state with
    | .ready =>
      match mark with
      | .name name | .prefixed name => declareAttributes? element (.named name) d more
      | _ => none
    | .named name => do declareAttributes? element (← behindType? name mark) d more
    | .notations name =>
      if mark == .sign '(' then declareAttributes? element (.part name true) d more else none
    | .part name isNotation => do
      declareAttributes? element (← behindPart? name isNotation mark) d more
    | .rest name isNotation =>
      if mark == .sign '|' then declareAttributes? element (.part name isNotation) d more
      else if mark == .sign ')' then declareAttributes? element (.typed name false) d more
      else none
    | .typed name keepsBlanks =>
      match mark with
      | .keyword word =>
        if word == "FIXED".toList then declareAttributes? element (.fixed name keepsBlanks) d more
        else if word == "IMPLIED".toList || word == "REQUIRED".toList then do
          let d ← declareAttribute? d element name keepsBlanks none
          declareAttributes? element .ready d more
        else none
      | .quoted t => do
        let d ← declareAttribute? d element name keepsBlanks (some t)
        declareAttributes? element .ready d more
      | _ => none
    | .fixed name keepsBlanks =>
      match mark with
      | .quoted t => do
        let d ← declareAttribute? d element name keepsBlanks (some t)
        declareAttributes? element .ready d more
      | _ => none

/-- The declaration of the attributes of an element. -/
def declareAttributeList? (d : Doctype) : List Mark → Option Doctype
  | .name element :: more | .prefixed element :: more => declareAttributes? element .ready d more
  | _ => none

/-! ### The declaration of a type -/

def declare? (d : Doctype) (keyword : Text) (marks : List Mark) : Option Doctype :=
  if keyword == "ENTITY".toList then d.declareEntity? marks
  else if keyword == "ATTLIST".toList then d.declareAttributeList? marks
  else if keyword == "ELEMENT".toList then d.declareElement? marks
  else if keyword == "NOTATION".toList then d.declareNotation? marks
  else none

/-- The type behind a reference to a parameter entity. -/
def passOver (d : Doctype) : Doctype := { d with isPartial := true, isRead := d.standsAlone }

/-- A declaration whose opening has been read, and what follows it. -/
def readDeclaration? (d : Doctype) (t : Text) : Option (Doctype × Text) := do
  let rest := t.dropWhile Char.isAlpha
  if !(rest.head?.any isSpace) then none
  let (marks, _, rest) ← readMarks? ['>'] rest
  let d ← d.declare? (t.takeWhile Char.isAlpha) marks
  pure (d, rest)

/-- A reference to a parameter entity whose sign has been read, and what follows it. -/
def readParameter? (d : Doctype) (t : Text) : Option (Doctype × Text) := do
  let (name, rest) ← cutAtFirst ';' t
  if isName name then pure (d.passOver, rest) else none

/-- One part of the declarations within a document, and what follows it. -/
def readPart? (d : Doctype) (t : Text) : Option (Doctype × Text) :=
  match t with
  | '%' :: r => d.readParameter? r
  | '<' :: '?' :: r => (afterInstruction? r).map fun rest => (d, rest)
  | '<' :: '!' :: '-' :: '-' :: r => (afterComment? r).map fun rest => (d, rest)
  | '<' :: '!' :: r => d.readDeclaration? r
  | _ => none

theorem length_of_readPart? {d d' : Doctype} {t rest : Text}
    (h : d.readPart? t = some (d', rest)) : rest.length < t.length := by
  unfold readPart? at h
  split at h
  · next r =>
    simp only [readParameter?, Option.bind_eq_bind, Option.pure_def, Option.bind_eq_some_iff,
      Prod.exists, Option.ite_none_right_eq_some, Option.some.injEq, Prod.mk.injEq] at h
    obtain ⟨name, after, h₁, _, _, rfl⟩ := h
    have := length_of_cutAtFirst h₁
    simp only [List.length_cons]
    omega
  · next r =>
    simp only [Option.map_eq_some_iff, Prod.mk.injEq] at h
    obtain ⟨after, h₁, _, rfl⟩ := h
    have := length_of_afterInstruction? h₁
    simp only [List.length_cons]
    omega
  · next r =>
    simp only [Option.map_eq_some_iff, Prod.mk.injEq] at h
    obtain ⟨after, h₁, _, rfl⟩ := h
    have := length_of_afterComment? h₁
    simp only [List.length_cons]
    omega
  · next r _ =>
    simp only [readDeclaration?, Option.bind_eq_bind, Option.pure_def] at h
    split at h
    · simp at h
    · simp only [Option.bind_eq_some_iff, Prod.exists, Option.some.injEq, Prod.mk.injEq] at h
      obtain ⟨marks, c, after, h₁, _, _, _, rfl⟩ := h
      have h₂ := length_of_readMarks? h₁
      have h₃ := length_dropWhile_le Char.isAlpha r
      simp only [List.length_cons]
      omega
  · simp at h

/-- The declarations within a document up to their closing bracket, and what follows it. -/
def readSubset? (d : Doctype) (t : Text) : Option (Doctype × Text) :=
  match hs : dropSpaces t with
  | ']' :: rest => some (d, rest)
  | r =>
    match h : d.readPart? r with
    | none => none
    | some (d, rest) =>
      have : rest.length < t.length :=
        Nat.lt_of_lt_of_le (length_of_readPart? h) (hs ▸ length_dropSpaces_le t)
      readSubset? d rest
termination_by t.length

/-- The marks in front of the declarations: a name, and perhaps where others are kept. -/
def readHeader? (d : Doctype) : List Mark → Option Doctype
  | .name _ :: more | .prefixed _ :: more =>
    if more.isEmpty then some d
    else if afterExternalId? more == some [] then some { d with isPartial := true }
    else none
  | _ => none

/-- **A declaration of the type** whose keyword has been read, and what follows it. -/
def read? (d : Doctype) (t : Text) : Option (Doctype × Text) := do
  if !(t.head?.any isSpace) then none
  let (marks, stop, rest) ← readMarks? ['>', '['] t
  let d ← d.readHeader? marks
  if stop == '>' then pure (d, rest)
  else do
    let (d, rest) ← d.readSubset? rest
    pure (d, ← dropPrefix? ['>'] (dropSpaces rest))

end Doctype

end Unjar.Xml
