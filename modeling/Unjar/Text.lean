/-!
Text as a list of characters.

Everything the library reads or writes as text — manifests, project descriptors, source files,
entry names, messages — is a `Text`.  This module holds the few operations on it that the rest
shares: the class of blank characters, the trimming and splitting built on it, the line breaks,
prefixes, searching, and numbers in decimal and hexadecimal digits.

Main definitions:

* `Unjar.Text`, `Unjar.Bytes` — text and octets;
* `Unjar.Text.isBlank`, `Unjar.Text.strip`, `Unjar.Text.fields` — blank characters, a text
  without those at its ends, and the words between them;
* `Unjar.Text.isLineBreak`, `Unjar.Text.lines` — line breaks and the lines between them;
* `Unjar.splitOn`, `Unjar.joinWith` — pieces between a separator, and back.
-/

set_option autoImplicit false

namespace Unjar

/-- A text is the list of its characters. -/
abbrev Text := List Char

/-- A byte sequence. -/
abbrev Bytes := List UInt8

/-! ### Pieces of a list -/

section Pieces

variable {α : Type} [BEq α]

/-- The pieces between the separators: one more than there are separators. -/
def splitOn (sep : α) : List α → List (List α)
  | [] => [[]]
  | c :: r =>
    if c == sep then [] :: splitOn sep r
    else match splitOn sep r with
      | [] => [[c]]
      | piece :: pieces => (c :: piece) :: pieces

/-- The pieces with a separator between any two neighbours. -/
def joinWith (sep : List α) : List (List α) → List α
  | [] => []
  | [piece] => piece
  | piece :: pieces => piece ++ sep ++ joinWith sep pieces

/-- What follows `start`, if the list begins with it. -/
def dropPrefix? (start : List α) (l : List α) : Option (List α) :=
  if start.isPrefixOf l then some (l.drop start.length) else none

/-- What stands before and after the first separator. -/
def cutAtFirst (sep : α) : List α → Option (List α × List α)
  | [] => none
  | c :: r =>
    if c == sep then some ([], r)
    else (cutAtFirst sep r).map fun (before, after) => (c :: before, after)

/-- What stands before and after the last separator. -/
def cutAtLast (sep : α) (l : List α) : Option (List α × List α) :=
  (cutAtFirst sep l.reverse).map fun (after, before) => (before.reverse, after.reverse)

/-- What follows the first occurrence of a pattern. -/
def afterFirst? (pattern : List α) : List α → Option (List α)
  | [] => if pattern.isEmpty then some [] else none
  | c :: r => (dropPrefix? pattern (c :: r)).or (afterFirst? pattern r)

/-- What stands before and after the first occurrence of a pattern. -/
def cutAtPattern (pattern : List α) : List α → Option (List α × List α)
  | [] => if pattern.isEmpty then some ([], []) else none
  | c :: r =>
    match dropPrefix? pattern (c :: r) with
    | some after => some ([], after)
    | none => (cutAtPattern pattern r).map fun (before, after) => (c :: before, after)

theorem length_of_cutAtFirst {sep : α} {l before after : List α}
    (h : cutAtFirst sep l = some (before, after)) :
    l.length = before.length + after.length + 1 := by
  induction l generalizing before with
  | nil => simp [cutAtFirst] at h
  | cons c r ih =>
    by_cases hc : (c == sep) = true
    · simp only [cutAtFirst, hc, if_true, Option.some.injEq, Prod.mk.injEq] at h
      obtain ⟨rfl, rfl⟩ := h
      simp
    · simp only [cutAtFirst, hc, Bool.false_eq_true, if_false, Option.map_eq_some_iff,
        Prod.mk.injEq, Prod.exists] at h
      obtain ⟨b, a, hba, rfl, rfl⟩ := h
      have := ih hba
      simp only [List.length_cons, this]
      omega

theorem cutAtFirst_eq_some [LawfulBEq α] {sep : α} {l before after : List α}
    (h : cutAtFirst sep l = some (before, after)) : l = before ++ sep :: after := by
  induction l generalizing before with
  | nil => simp [cutAtFirst] at h
  | cons c r ih =>
    unfold cutAtFirst at h
    split at h
    · simp_all
    · simp only [Option.map_eq_some_iff, Prod.mk.injEq, Prod.exists] at h
      obtain ⟨before', after', h, rfl, rfl⟩ := h
      simp [ih h]

theorem length_le_of_dropPrefix? {start l rest : List α} (h : dropPrefix? start l = some rest) :
    rest.length ≤ l.length := by
  unfold dropPrefix? at h
  split at h
  · simp only [Option.some.injEq] at h
    subst h
    simp
  · simp at h

theorem length_le_of_cutAtPattern {pattern l before after : List α}
    (h : cutAtPattern pattern l = some (before, after)) : after.length ≤ l.length := by
  induction l generalizing before with
  | nil =>
    simp only [cutAtPattern, Option.ite_none_right_eq_some, Option.some.injEq, Prod.mk.injEq] at h
    simp [← h.2.2]
  | cons c r ih =>
    unfold cutAtPattern at h
    split at h
    · next rest hd =>
      simp only [Option.some.injEq, Prod.mk.injEq] at h
      obtain ⟨_, rfl⟩ := h
      exact length_le_of_dropPrefix? hd
    · simp only [Option.map_eq_some_iff, Prod.mk.injEq, Prod.exists] at h
      obtain ⟨b, a, hba, rfl, rfl⟩ := h
      have := ih hba
      simp only [List.length_cons]
      omega

end Pieces

namespace Text

/-! ### Blank characters -/

/-- Blank characters: the white space of Unicode together with the four information separators. -/
def isBlank (c : Char) : Bool :=
  let n := c.toNat
  (0x09 ≤ n && n ≤ 0x0D) || (0x1C ≤ n && n ≤ 0x20) || n == 0x85 || n == 0xA0 || n == 0x1680 ||
    (0x2000 ≤ n && n ≤ 0x200A) || n == 0x2028 || n == 0x2029 || n == 0x202F || n == 0x205F ||
    n == 0x3000

/-- A text without the blanks before it. -/
def stripStart (t : Text) : Text := t.dropWhile isBlank

/-- A text without the blanks after it. -/
def stripEnd (t : Text) : Text := (t.reverse.dropWhile isBlank).reverse

/-- A text without the blanks at either end. -/
def strip (t : Text) : Text := stripEnd (stripStart t)

/-- White space in the narrow sense of Unicode, which leaves the information separators out. -/
def isSpace (c : Char) : Bool := isBlank c && !(0x1C ≤ c.toNat && c.toNat ≤ 0x1F)

/-- A text without the white space at either end. -/
def trimSpace (t : Text) : Text :=
  ((t.dropWhile isSpace).reverse.dropWhile isSpace).reverse

/-- Whether a text holds blanks only; the empty text does. -/
def isAllBlank (t : Text) : Bool := t.all isBlank

/-- The words of a text: its maximal runs without a blank. -/
def fields : Text → List Text
  | [] => []
  | c :: r =>
    if isBlank c then fields r
    else match r with
      | [] => [[c]]
      | d :: _ =>
        if isBlank d then [c] :: fields r
        else match fields r with
          | [] => [[c]]
          | word :: words => (c :: word) :: words

/-! ### Lines -/

/-- The characters that end a line. -/
def isLineBreak (c : Char) : Bool :=
  let n := c.toNat
  (0x0A ≤ n && n ≤ 0x0D) || (0x1C ≤ n && n ≤ 0x1E) || n == 0x85 || n == 0x2028 || n == 0x2029

/-- The lines of a text without their ends; a carriage return with a line feed is one end, and
nothing follows the last end. -/
def lines : Text → List Text
  | [] => []
  | '\r' :: '\n' :: r => [] :: lines r
  | c :: r =>
    if isLineBreak c then [] :: lines r
    else match lines r with
      | [] => [[c]]
      | line :: rest => (c :: line) :: rest

/-- Every line end written as one line feed, where a line ends at CR LF, CR or LF. -/
def unifyLineEnds : Text → Text
  | [] => []
  | '\r' :: '\n' :: r => '\n' :: unifyLineEnds r
  | c :: r => (if c == '\r' then '\n' else c) :: unifyLineEnds r

/-! ### Numbers -/

/-- A number in decimal digits. -/
def ofNat (n : Nat) : Text := Nat.toDigits 10 n

/-- A whole number in decimal digits, with a minus sign below zero. -/
def ofInt : Int → Text
  | .ofNat n => ofNat n
  | .negSucc n => '-' :: ofNat (n + 1)

/-- A number in at least `width` lower-case hexadecimal digits. -/
def hex (width n : Nat) : Text :=
  let digits := Nat.toDigits 16 n
  List.replicate (width - digits.length) '0' ++ digits

/-! ### Order -/

/-- Texts are ordered by the code points of their characters. -/
def le (a b : Text) : Bool := !(decide (b < a))

end Text

end Unjar
