import Unjar.Text

/-!
The names that a source file declares.

To file a source text away one needs its package and its first top-level type.  A full parser is
not needed for that: comments and literals are passed over, braces are counted, and only
declarations outside all braces are looked at.

Main definitions:

* `Unjar.JavaSource.Token`, `Unjar.JavaSource.tokens` — identifiers and punctuation with the depth
  of braces around them;
* `Unjar.JavaSource.DeclaredNames`, `Unjar.JavaSource.declaredNames` — the package and the type.
-/

set_option autoImplicit false

namespace Unjar.JavaSource

/-! ### Characters -/

/-- The characters that begin an identifier: ASCII letters, the underscore and the dollar sign. -/
def isIdentifierStart (c : Char) : Bool := c.isAlpha || c == '_' || c == '$'

/-- The characters within an identifier. -/
def isIdentifierPart (c : Char) : Bool := isIdentifierStart c || c.isDigit

def isIdentifier : Text → Bool
  | [] => false
  | c :: r => isIdentifierStart c && r.all isIdentifierPart

/-! ### Passing over -/

/-- What follows the line that a text begins with. -/
def afterLine : Text → Text
  | [] => []
  | c :: r => if c == '\n' then r else afterLine r

/-- What follows the first occurrence of a pattern, or nothing. -/
def afterPattern (pattern t : Text) : Text := (afterFirst? pattern t).getD []

/-- The three quotes around a text block. -/
def tripleQuote : Text := ['"', '"', '"']

/-- What follows a literal whose opening quote has been read.  A backslash protects the character
behind it; the end of the line ends the literal too. -/
def afterQuote (quote : Char) : Text → Text
  | [] => []
  | [_] => []
  | c :: d :: r =>
    if c == '\\' then afterQuote quote r
    else if c == quote || c == '\n' then d :: r
    else afterQuote quote (d :: r)

/-- What follows a literal that begins with `quote`, the text behind that quote being `behind`.
Three double quotes open a block that only three more close. -/
def afterLiteral (quote : Char) (behind : Text) : Text :=
  match quote, behind with
  | '"', '"' :: '"' :: r => afterPattern tripleQuote r
  | _, _ => afterQuote quote behind

theorem afterLine_length (t : Text) : (afterLine t).length ≤ t.length := by
  induction t with
  | nil => simp [afterLine]
  | cons c r ih =>
    unfold afterLine
    split
    · simp
    · simp; omega

theorem afterFirst?_length {α : Type} [BEq α] {pattern l rest : List α}
    (h : afterFirst? pattern l = some rest) : rest.length ≤ l.length := by
  induction l with
  | nil =>
    unfold afterFirst? at h
    split at h <;> simp_all
  | cons c r ih =>
    unfold afterFirst? at h
    cases hp : dropPrefix? pattern (c :: r) with
    | some found =>
      simp only [hp, Option.or, Option.some.injEq] at h
      subst h
      unfold dropPrefix? at hp
      split at hp
      · simp only [Option.some.injEq] at hp
        subst hp
        simp
      · simp at hp
    | none =>
      simp only [hp, Option.or] at h
      have := ih h
      simp
      omega

theorem afterPattern_length (pattern t : Text) : (afterPattern pattern t).length ≤ t.length := by
  unfold afterPattern
  cases h : afterFirst? pattern t with
  | none => simp
  | some rest => simpa using afterFirst?_length h

theorem afterQuote_length (quote : Char) (t : Text) :
    (afterQuote quote t).length ≤ t.length := by
  fun_induction afterQuote quote t with
  | case1 => simp
  | case2 => simp
  | case3 c d r h ih => simp; omega
  | case4 c d r h₁ h₂ => simp
  | case5 c d r h₁ h₂ ih => simp at ih ⊢; omega

theorem afterLiteral_length (quote : Char) (behind : Text) :
    (afterLiteral quote behind).length ≤ behind.length := by
  unfold afterLiteral
  split
  · have := afterPattern_length tripleQuote ‹Text›
    simp; omega
  · exact afterQuote_length _ _

theorem dropWhile_length {α : Type} (p : α → Bool) (l : List α) :
    (l.dropWhile p).length ≤ l.length := (List.dropWhile_sublist p).length_le

/-! ### Tokens -/

/-- An identifier or a single character, with the number of open braces around it. -/
structure Token where
  /-- The characters. -/
  text : Text
  /-- The number of open braces. -/
  depth : Nat
deriving DecidableEq, Repr

/-- The tokens of a text that begins within `depth` open braces. -/
def tokensAt (depth : Nat) (t : Text) : List Token :=
  match t with
  | [] => []
  | c :: r =>
    if Text.isBlank c then tokensAt depth r
    else if c == '/' && r.head? == some '/' then tokensAt depth (afterLine r)
    else if c == '/' && r.head? == some '*' then
      tokensAt depth (afterPattern "*/".toList (r.drop 1))
    else if c == '"' || c == '\'' then tokensAt depth (afterLiteral c r)
    else if c == '{' then ⟨[c], depth⟩ :: tokensAt (depth + 1) r
    else if c == '}' then ⟨[c], depth - 1⟩ :: tokensAt (depth - 1) r
    else if isIdentifierStart c then
      ⟨c :: r.takeWhile isIdentifierPart, depth⟩ :: tokensAt depth (r.dropWhile isIdentifierPart)
    else ⟨[c], depth⟩ :: tokensAt depth r
  termination_by t.length
  decreasing_by
    all_goals simp only [List.length_cons]
    · omega
    · have := afterLine_length r; omega
    · have := afterPattern_length "*/".toList (r.drop 1)
      have := List.length_drop (i := 1) (l := r)
      omega
    · have := afterLiteral_length c r; omega
    · omega
    · omega
    · have := dropWhile_length isIdentifierPart r; omega
    · omega

/-- **The tokens of a text.** -/
def tokens (t : Text) : List Token := tokensAt 0 t

/-! ### Declarations -/

/-- The words that announce a type. -/
def typeKeywords : List Text :=
  ["class", "interface", "enum", "record"].map String.toList

/-- The words that cannot name a type. -/
def reserved : List Text :=
  ["abstract", "class", "enum", "extends", "final", "implements", "interface", "native", "non",
    "permits", "private", "protected", "public", "record", "sealed", "static", "strictfp",
    "synchronized", "transient", "volatile"].map String.toList

/-- **What a source file declares.** -/
structure DeclaredNames where
  /-- The parts of the package name; none where no package is declared. -/
  package : List Text
  /-- The first top-level type, if there is one. -/
  type : Option Text
deriving DecidableEq, Repr

/-- The name that stands for a missing type. -/
def placeholderType : Text := "Unknown".toList

/-- The dotted name of the package. -/
def DeclaredNames.packageName (d : DeclaredNames) : Text := joinWith ['.'] d.package

def DeclaredNames.typeName (d : DeclaredNames) : Text := d.type.getD placeholderType

/-- The parts of a qualified name that a semicolon ends; none if it is malformed.  `parts` are the
parts read so far, and a further one is expected. -/
def qualifiedName (parts : List Text) : List Token → List Text
  | part :: stop :: more =>
    if !isIdentifier part.text then []
    else if stop.text == [';'] then parts ++ [part.text]
    else if stop.text == ['.'] then qualifiedName (parts ++ [part.text]) more
    else []
  | _ => []

/-- The type that a keyword behind the token `previous` declares: the identifier behind it, unless a
dot makes the keyword part of an expression or the identifier cannot name a type. -/
def typeAfter (previous : Option Text) : List Token → Option Text
  | [] => none
  | candidate :: _ =>
    if previous == some ['.'] then none
    else if isIdentifier candidate.text && !reserved.contains candidate.text then
      some candidate.text
    else none

/-- The names that a sequence of tokens declares, the token before it being `previous` and the
package found so far being `package`. -/
def declaredIn (previous : Option Text) (package : List Text) : List Token → DeclaredNames
  | [] => ⟨package, none⟩
  | token :: more =>
    if token.depth ≠ 0 then declaredIn (some token.text) package more
    else if package.isEmpty && token.text == "package".toList then
      declaredIn (some token.text) (qualifiedName [] more) more
    else if typeKeywords.contains token.text then
      match typeAfter previous more with
      | some type => ⟨package, some type⟩
      | none => declaredIn (some token.text) package more
    else declaredIn (some token.text) package more

/-- **The package and the first top-level type of a source text.** -/
def declaredNames (t : Text) : DeclaredNames := declaredIn none [] (tokens t)

end Unjar.JavaSource
