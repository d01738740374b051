import Mathlib.Data.List.TakeWhile
import Unjar.JavaSource
import Unjar.Proofs.Text

/-!
The lexemes of a source text.

A source text is a sequence of lexemes with blanks and comments between them.  Reading its tokens
goes lexeme by lexeme: a name gives one token for each run of ASCII characters in it and one for
every other letter, a literal gives none, and a brace changes the depth of what follows.  A lexeme
is read like this wherever it stands, provided that what follows does not join it.

Main definitions:

* `Unjar.JavaSource.Filler` — blanks and comments;
* `Unjar.JavaSource.Lexeme` — names, literals, braces and other signs, with the text and the tokens
  of each;
* `Unjar.JavaSource.Spells` — the texts of a sequence of lexemes.

Main results:

* `Unjar.JavaSource.tokensAt_filler` — blanks and comments are passed over;
* `Unjar.JavaSource.tokensAt_lexeme` — the tokens of one lexeme;
* `Unjar.JavaSource.Spells.tokensAt_eq` — **the tokens of a text are those of its lexemes**.
-/

set_option autoImplicit false

namespace Unjar

/-- A run is taken whole, and no more, where what follows it does not continue it. -/
theorem takeWhile_append_of_head? {α : Type} {p : α → Bool} {rest : List α}
    (hrest : ∀ a ∈ rest.head?, p a = false) (l : List α) :
    (l ++ rest).takeWhile p = l.takeWhile p ∧ (l ++ rest).dropWhile p = l.dropWhile p ++ rest := by
  induction l with
  | nil =>
      cases rest with
      | nil => exact ⟨rfl, rfl⟩
      | cons a rest => simp [hrest a rfl]
  | cons a l ih => by_cases ha : p a = true <;> simp [ha, ih]

namespace JavaSource

open Text (isBlank)

variable {depth : Nat} {c : Char} {t rest : Text}

/-! ### Names -/

/-- A letter beyond ASCII, or another character there that is not blank. -/
def isForeign (c : Char) : Bool := 0x80 ≤ c.toNat && !isBlank c

/-- The characters that begin a name. -/
def isNameStart (c : Char) : Bool := isIdentifierStart c || isForeign c

/-- The characters within a name. -/
def isNamePart (c : Char) : Bool := isIdentifierPart c || isForeign c

/-- The pieces of a name: its runs of ASCII characters, and every other character by itself. -/
def pieces : Text → List Text
  | [] => []
  | c :: r =>
    if isIdentifierStart c then
      (c :: r.takeWhile isIdentifierPart) :: pieces (r.dropWhile isIdentifierPart)
    else [c] :: pieces r
  termination_by t => t.length
  decreasing_by
  · have := dropWhile_length isIdentifierPart r
    simp only [List.length_cons]
    omega
  · simp

/-- A name of ASCII characters is one piece. -/
theorem pieces_of_isIdentifier (h : isIdentifier t = true) : pieces t = [t] := by
  cases t with
  | nil => cases h
  | cons c r =>
      obtain ⟨hc, hr⟩ := Bool.and_eq_true_iff.mp h
      have hr : ∀ d ∈ r, isIdentifierPart d = true := List.all_eq_true.mp hr
      have htake : r.takeWhile isIdentifierPart = r := List.takeWhile_eq_self_iff.mpr hr
      rw [pieces, if_pos hc, htake, List.dropWhile_eq_nil_iff.mpr hr, pieces]

/-! ### Blanks and comments -/

/-- **What may stand between lexemes.** -/
inductive Filler : Text → Prop where
  | blank {c : Char} (h : isBlank c = true) : Filler [c]
  /-- A comment that the end of its line ends. -/
  | line {t : Text} (h : '\n' ∉ t) : Filler ("//".toList ++ (t ++ ['\n']))
  /-- A comment between two marks. -/
  | block {t : Text} (h : ¬"*/".toList <:+: t ++ ['*']) : Filler ("/*".toList ++ (t ++ "*/".toList))

/-! ### Lexemes -/

/-- What may stand between the quotes of a literal: a backslash protects the character behind it. -/
inductive QuotedBody (quote : Char) : Text → Prop where
  | nil : QuotedBody quote []
  | plain {c : Char} {t : Text} (hquote : c ≠ quote) (hescape : c ≠ '\\') (hline : c ≠ '\n')
      (h : QuotedBody quote t) : QuotedBody quote (c :: t)
  | escaped {c : Char} {t : Text} (h : QuotedBody quote t) : QuotedBody quote ('\\' :: c :: t)

theorem quotedBody_of_plain {quote : Char} {t : Text}
    (h : ∀ c ∈ t, c ≠ quote ∧ c ≠ '\\' ∧ c ≠ '\n') : QuotedBody quote t := by
  induction t with
  | nil => exact .nil
  | cons c t ih =>
      rw [List.forall_mem_cons] at h
      exact .plain h.1.1 h.1.2.1 h.1.2.2 (ih h.2)

/-- **The lexemes of a source text.** -/
inductive Lexeme where
  | name (t : Text)
  /-- A character by itself, such as a bracket, an operator or a digit. -/
  | sign (c : Char)
  /-- A literal between two quotes. -/
  | quoted (quote : Char) (body : Text)
  /-- A text block. -/
  | block (body : Text)
  /-- An opening brace. -/
  | opening
  /-- A closing brace. -/
  | closing

namespace Lexeme

/-- What a lexeme of each kind consists of. -/
def WellFormed : Lexeme → Prop
  | name t => ∃ c r, t = c :: r ∧ isNameStart c = true ∧ ∀ d ∈ r, isNamePart d = true
  | sign c => isBlank c = false ∧ isIdentifierStart c = false ∧ c ∉ "\"'\x7b\x7d".toList
  | quoted quote body => quote ∈ "\"'".toList ∧ QuotedBody quote body
  | block body => ¬tripleQuote <:+: body ++ ['"', '"']
  | opening => True
  | closing => True

/-- A name of ASCII characters is a name. -/
theorem wellFormed_name {t : Text} (h : isIdentifier t = true) : (name t).WellFormed := by
  cases t with
  | nil => cases h
  | cons c r =>
      obtain ⟨hc, hr⟩ := Bool.and_eq_true_iff.mp h
      refine ⟨c, r, rfl, ?_, fun d hd => ?_⟩
      · rw [isNameStart, hc, Bool.true_or]
      · rw [isNamePart, List.all_eq_true.mp hr d hd, Bool.true_or]

def text : Lexeme → Text
  | name t => t
  | sign c => [c]
  | quoted quote body => quote :: (body ++ [quote])
  | block body => tripleQuote ++ (body ++ tripleQuote)
  | opening => ['\x7b']
  | closing => ['\x7d']

/-- Whether a lexeme ends in front of a text: the text neither continues a name nor makes a comment
of a slash or a text block of two quotes. -/
def EndsBefore (rest : Text) : Lexeme → Prop
  | name _ => ∀ c ∈ rest.head?, isIdentifierPart c = false
  | sign c => c = '/' → rest.head? ≠ some '/' ∧ rest.head? ≠ some '*'
  | quoted quote body => quote = '"' → body = [] → rest.head? ≠ some '"'
  | _ => True

instance (rest : Text) (l : Lexeme) : Decidable (l.EndsBefore rest) :=
  match l with
  | name _ => decidable_of_iff (rest.head?.all (!isIdentifierPart ·)) <| by
      cases h : rest.head? <;> simp [EndsBefore, h]
  | sign _ => inferInstanceAs (Decidable (_ → _ ∧ _))
  | quoted _ _ => inferInstanceAs (Decidable (_ → _ → _))
  | block _ => inferInstanceAs (Decidable True)
  | opening => inferInstanceAs (Decidable True)
  | closing => inferInstanceAs (Decidable True)

/-- The tokens of a lexeme within `depth` open braces. -/
def tokens (depth : Nat) : Lexeme → List Token
  | name t => (pieces t).map fun piece => ⟨piece, depth⟩
  | sign c => [⟨[c], depth⟩]
  | quoted _ _ => []
  | block _ => []
  | opening => [⟨['\x7b'], depth⟩]
  | closing => [⟨['\x7d'], depth - 1⟩]

theorem tokens_name {t : Text} (h : isIdentifier t = true) (depth : Nat) :
    (name t).tokens depth = [⟨t, depth⟩] := by
  rw [tokens, pieces_of_isIdentifier h]
  rfl

/-- The number of open braces behind a lexeme. -/
def depthBehind (depth : Nat) : Lexeme → Nat
  | opening => depth + 1
  | closing => depth - 1
  | _ => depth

end Lexeme

/-- The texts that a sequence of lexemes is written as, in front of `rest`. -/
inductive Spells (rest : Text) : List Lexeme → Text → Prop where
  | done : Spells rest [] rest
  | filler {f t : Text} {ls : List Lexeme} (hf : Filler f) (h : Spells rest ls t) :
      Spells rest ls (f ++ t)
  | lexeme {l : Lexeme} {t : Text} {ls : List Lexeme} (hl : l.WellFormed) (hends : l.EndsBefore t)
      (h : Spells rest ls t) : Spells rest (l :: ls) (l.text ++ t)

/-! ### Reading a lexeme -/

section

variable {r : Text}

/-- What begins a name is neither blank nor one of the characters with a meaning of their own. -/
theorem isBlank_of_isIdentifierStart (h : isIdentifierStart c = true) :
    isBlank c = false ∧ c ∉ "/\"'\x7b\x7d".toList := by
  constructor
  · simp only [isIdentifierStart, Bool.or_eq_true, Text.isAlpha_iff, beq_iff_eq] at h
    refine Bool.eq_false_iff.mpr fun hblank => ?_
    simp only [isBlank, Bool.or_eq_true, Bool.and_eq_true, decide_eq_true_eq, beq_iff_eq] at hblank
    rcases h with ((⟨hlow, hhigh⟩ | ⟨hlow, hhigh⟩) | rfl) | rfl
    · have hlow : 'A'.toNat ≤ c.toNat := hlow
      have hhigh : c.toNat ≤ 'Z'.toNat := hhigh
      simp at hlow hhigh
      omega
    · have hlow : 'a'.toNat ≤ c.toNat := hlow
      have hhigh : c.toNat ≤ 'z'.toNat := hhigh
      simp at hlow hhigh
      omega
    · simp at hblank
    · simp at hblank
  · intro hmem
    have hc : c = '/' ∨ c = '"' ∨ c = '\'' ∨ c = '\x7b' ∨ c = '\x7d' := by simpa using hmem
    rcases hc with rfl | rfl | rfl | rfl | rfl <;> exact absurd h (by decide)

theorem tokensAt_identifier (h : isIdentifierStart c = true) :
    tokensAt depth (c :: r) = ⟨c :: r.takeWhile isIdentifierPart, depth⟩ ::
      tokensAt depth (r.dropWhile isIdentifierPart) := by
  obtain ⟨hblank, hc⟩ := isBlank_of_isIdentifierStart h
  simp at hc
  rw [tokensAt]
  simp [hblank, hc, h]

/-- A sign is a token, unless it begins a comment. -/
theorem tokensAt_sign (hc : (Lexeme.sign c).WellFormed) (hends : (Lexeme.sign c).EndsBefore r) :
    tokensAt depth (c :: r) = ⟨[c], depth⟩ :: tokensAt depth r := by
  obtain ⟨hblank, hstart, hc⟩ := hc
  simp at hc
  rw [tokensAt]
  by_cases hslash : c = '/'
  · obtain ⟨hline, hblock⟩ := hends hslash
    rw [hslash] at hblank hstart ⊢
    simp [hline, hblock, hblank, hstart]
  · simp [hblank, hstart, hc, hslash]

/-- A character of a name that begins no identifier is a sign. -/
theorem wellFormed_sign_of_isNamePart (hpart : isNamePart c = true)
    (hstart : ¬isIdentifierStart c = true) : (Lexeme.sign c).WellFormed ∧ c ≠ '/' := by
  have hc (d : Char) (hd : isNamePart d = false) : c ≠ d := by
    rintro rfl
    rw [hpart] at hd
    cases hd
  have hsigns : c ∉ "\"'\x7b\x7d".toList := by
    simp [hc '"' (by decide), hc '\'' (by decide), hc '\x7b' (by decide), hc '\x7d' (by decide)]
  refine ⟨⟨?_, Bool.eq_false_iff.mpr hstart, hsigns⟩, hc '/' (by decide)⟩
  rcases Bool.or_eq_true_iff.mp hpart with hpart | hforeign
  · have hdigit : c.isDigit = true := (Bool.or_eq_true_iff.mp hpart).resolve_left hstart
    obtain ⟨hlow, hhigh⟩ := Text.isDigit_iff.mp hdigit
    have hlow : '0'.toNat ≤ c.toNat := hlow
    have hhigh : c.toNat ≤ '9'.toNat := hhigh
    refine Bool.eq_false_iff.mpr fun hblank => ?_
    simp only [isBlank, Bool.or_eq_true, Bool.and_eq_true, decide_eq_true_eq, beq_iff_eq] at hblank
    simp at hlow hhigh
    omega
  · exact Bool.not_eq_true' _ |>.mp (Bool.and_eq_true_iff.mp hforeign).2

/-- **The pieces of a name are its tokens.** -/
theorem tokensAt_name (ht : ∀ c ∈ t, isNamePart c = true)
    (hends : ∀ c ∈ rest.head?, isIdentifierPart c = false) :
    tokensAt depth (t ++ rest) =
      (pieces t).map (fun piece => ⟨piece, depth⟩) ++ tokensAt depth rest := by
  fun_induction pieces t with
  | case1 => rfl
  | case2 c r hc ih =>
      obtain ⟨htake, hdrop⟩ := takeWhile_append_of_head? hends r
      have hr : ∀ d ∈ r.dropWhile isIdentifierPart, isNamePart d = true := fun d hd =>
        ht d (List.mem_cons_of_mem _ ((List.dropWhile_sublist _).subset hd))
      rw [List.cons_append, tokensAt_identifier hc, htake, hdrop, ih hr]
      rfl
  | case3 c r hc ih =>
      rw [List.forall_mem_cons] at ht
      obtain ⟨hsign, hslash⟩ := wellFormed_sign_of_isNamePart ht.1 hc
      rw [List.cons_append, tokensAt_sign hsign fun h => absurd h hslash, ih ht.2]
      rfl

theorem afterLine_append (ht : '\n' ∉ t) (rest : Text) : afterLine (t ++ '\n' :: rest) = rest := by
  induction t with
  | nil => rfl
  | cons c t ih =>
      rw [List.mem_cons, not_or] at ht
      rw [List.cons_append, afterLine, if_neg (by simpa using Ne.symm ht.1), ih ht.2]

theorem afterFirst?_eq (pattern t : Text) :
    afterFirst? pattern t = (cutAtPattern pattern t).map Prod.snd := by
  induction t with
  | nil =>
      rw [afterFirst?, cutAtPattern]
      split <;> rfl
  | cons c t ih =>
      rw [afterFirst?, cutAtPattern, ih]
      cases dropPrefix? pattern (c :: t) with
      | some after => rfl
      | none => cases cutAtPattern pattern t <;> rfl

theorem afterPattern_append {pattern : Text} (rest : Text)
    (h : ¬pattern <:+: t ++ pattern.dropLast) :
    afterPattern pattern (t ++ (pattern ++ rest)) = rest := by
  rw [afterPattern, afterFirst?_eq, cutAtPattern_append rest h]
  rfl

theorem afterQuote_append {quote : Char} {body : Text} (hquote : quote ≠ '\\')
    (h : QuotedBody quote body) (rest : Text) :
    afterQuote quote (body ++ quote :: rest) = rest := by
  induction h with
  | nil =>
      cases rest with
      | nil => rfl
      | cons d rest => simp [afterQuote, hquote]
  | @plain c t hc hescape hline _ ih =>
      obtain ⟨d, r, hr⟩ : ∃ d r, t ++ quote :: rest = d :: r :=
        List.exists_cons_of_ne_nil (by simp)
      rw [hr] at ih
      rw [List.cons_append, hr, afterQuote, if_neg (by simpa using hescape),
        if_neg (by simp [hc, hline]), ih]
  | @escaped c t _ ih =>
      rw [List.cons_append, List.cons_append, afterQuote, if_pos (by simp), ih]

theorem tokensAt_quote {quote : Char} (hquote : quote ∈ "\"'".toList) :
    tokensAt depth (quote :: r) = tokensAt depth (afterLiteral quote r) := by
  have hquote : quote = '"' ∨ quote = '\'' := by simpa using hquote
  rcases hquote with rfl | rfl
  · rw [tokensAt]
    rfl
  · rw [tokensAt]
    rfl

/-- **Blanks and comments are passed over.** -/
theorem tokensAt_filler {f : Text} (hf : Filler f) (rest : Text) :
    tokensAt depth (f ++ rest) = tokensAt depth rest := by
  cases hf with
  | blank h => rw [List.singleton_append, tokensAt, if_pos h]
  | @line t h =>
      have htext : "//".toList ++ (t ++ ['\n']) ++ rest = '/' :: '/' :: (t ++ '\n' :: rest) := by
        simp
      have hline : tokensAt depth ('/' :: '/' :: (t ++ '\n' :: rest)) =
          tokensAt depth (afterLine (t ++ '\n' :: rest)) := by
        rw [tokensAt]
        rfl
      rw [htext, hline, afterLine_append h]
  | @block t h =>
      have htext : "/*".toList ++ (t ++ "*/".toList) ++ rest =
          '/' :: '*' :: (t ++ ("*/".toList ++ rest)) := by simp
      have hblock : tokensAt depth ('/' :: '*' :: (t ++ ("*/".toList ++ rest))) =
          tokensAt depth (afterPattern "*/".toList (t ++ ("*/".toList ++ rest))) := by
        rw [tokensAt]
        rfl
      rw [htext, hblock, afterPattern_append rest h]

theorem afterLiteral_quoted {quote : Char} {body : Text}
    (hl : (Lexeme.quoted quote body).WellFormed)
    (hends : (Lexeme.quoted quote body).EndsBefore rest) :
    afterLiteral quote (body ++ quote :: rest) = rest := by
  obtain ⟨hquote, hbody⟩ := hl
  have hescape : quote ≠ '\\' := by
    rintro rfl
    exact absurd hquote (by decide)
  unfold afterLiteral
  split
  · next r heq =>
    -- two quotes would be an empty literal with a third quote behind it
    cases hbody with
    | nil =>
        rw [List.nil_append, List.cons.injEq] at heq
        exact absurd (by rw [heq.2]; rfl) (hends rfl rfl)
    | plain hne _ _ _ =>
        rw [List.cons_append, List.cons.injEq] at heq
        exact absurd heq.1 hne
    | escaped _ =>
        rw [List.cons_append, List.cons.injEq] at heq
        exact absurd heq.1 (by decide)
  · exact afterQuote_append hescape hbody rest

/-- **The tokens of a lexeme.** -/
theorem tokensAt_lexeme {l : Lexeme} (hl : l.WellFormed) (hends : l.EndsBefore rest) :
    tokensAt depth (l.text ++ rest) =
      l.tokens depth ++ tokensAt (l.depthBehind depth) rest := by
  cases l with
  | name t =>
      obtain ⟨c, r, rfl, hc, hr⟩ := hl
      have hc : isNamePart c = true := by
        rcases Bool.or_eq_true_iff.mp hc with hc | hc
        · exact Bool.or_eq_true_iff.mpr (.inl (Bool.or_eq_true_iff.mpr (.inl hc)))
        · exact Bool.or_eq_true_iff.mpr (.inr hc)
      exact tokensAt_name (List.forall_mem_cons.mpr ⟨hc, hr⟩) hends
  | sign c => exact tokensAt_sign hl hends
  | quoted quote body =>
      rw [Lexeme.text, List.cons_append, List.append_assoc, tokensAt_quote hl.1,
        List.singleton_append, afterLiteral_quoted hl hends]
      rfl
  | block body =>
      have htext : (Lexeme.block body).text ++ rest =
          '"' :: '"' :: '"' :: (body ++ (tripleQuote ++ rest)) := by
        simp [Lexeme.text, tripleQuote]
      rw [htext, tokensAt_quote (by decide)]
      exact congrArg _ (afterPattern_append rest hl)
  | opening =>
      rw [Lexeme.text, List.singleton_append, tokensAt]
      rfl
  | closing =>
      rw [Lexeme.text, List.singleton_append, tokensAt]
      rfl

end

/-! ### Reading a text -/

/-- The number of open braces behind lexemes. -/
def depthAfter (depth : Nat) (ls : List Lexeme) : Nat := ls.foldl Lexeme.depthBehind depth

/-- The tokens of lexemes. -/
def lexemeTokens (depth : Nat) : List Lexeme → List Token
  | [] => []
  | l :: ls => l.tokens depth ++ lexemeTokens (l.depthBehind depth) ls

theorem Spells.wellFormed {ls : List Lexeme} (h : Spells rest ls t) : ∀ l ∈ ls, l.WellFormed := by
  induction h with
  | done => exact List.forall_mem_nil _
  | filler _ _ ih => exact ih
  | lexeme hl _ _ ih => exact List.forall_mem_cons.mpr ⟨hl, ih⟩

/-- **The tokens of a text are those of its lexemes.** -/
theorem Spells.tokensAt_eq {ls : List Lexeme} (h : Spells rest ls t) (depth : Nat) :
    tokensAt depth t = lexemeTokens depth ls ++ tokensAt (depthAfter depth ls) rest := by
  induction h generalizing depth with
  | done => rfl
  | filler hf _ ih => rw [tokensAt_filler hf, ih]
  | lexeme hl hends _ ih =>
      rw [tokensAt_lexeme hl hends, ih, lexemeTokens, List.append_assoc]
      rfl

end JavaSource

end Unjar
