import Unjar.Proofs.JavaSource.Lexeme
import Unjar.Xml.Reference

/-!
Literals and where they end.

Between the quotes of a literal a character stands for itself or is spelled by an escape.  A string
and a character hold neither their own quote nor a backslash nor the end of a line except as an
escape.  A text block begins on the line behind its three quotes; it may hold line ends and quotes,
but no three quotes in a row of which none is escaped, for these end it.

Such a literal is passed over as a whole and the reader goes on behind it, with one exception.  Of a
text block the reader looks for three quotes in a row and does not ask what is in front of them, so
that a block in which three quotes follow a backslash ends too early for it.

Main definitions:

* `Unjar.JavaSource.Spelling` — a character, or an escape in place of one;
* `Unjar.JavaSource.BlockContent` — what a text block may hold;
* `Unjar.JavaSource.IsLiteral` — **the literals**: strings, characters and text blocks;
* `Unjar.JavaSource.Lexeme.HidesQuotes` — a text block with three quotes behind a backslash.

Main results:

* `Unjar.JavaSource.quotedBody_of_spellings` — what stands in a string or a character;
* `Unjar.JavaSource.BlockContent.infix_of_infix` — three quotes in a text block are behind a
  backslash;
* `Unjar.JavaSource.afterLiteral_of_isLiteral` — **a literal is passed over exactly if it hides no
  quotes**.
-/

set_option autoImplicit false

namespace Unjar

/-- The first occurrence of a pattern is not behind another one. -/
theorem cutAtPattern_of_occurs {α : Type} [BEq α] [LawfulBEq α] (pattern before after : List α) :
    ∃ front back, cutAtPattern pattern (before ++ (pattern ++ after)) = some (front, back) ∧
      front.length ≤ before.length := by
  induction before with
  | nil =>
      refine ⟨[], after, ?_, Nat.le_refl 0⟩
      have hdrop := dropPrefix?_append pattern after
      rw [List.nil_append]
      cases pattern with
      | nil =>
          cases after with
          | nil => rfl
          | cons a after =>
              rw [List.nil_append] at hdrop ⊢
              rw [cutAtPattern, hdrop]
      | cons p pattern =>
          rw [List.cons_append] at hdrop ⊢
          rw [cutAtPattern, hdrop]
  | cons c before ih =>
      obtain ⟨front, back, hcut, hlength⟩ := ih
      rw [List.cons_append, cutAtPattern]
      cases dropPrefix? pattern (c :: (before ++ (pattern ++ after))) with
      | some back => exact ⟨[], back, rfl, Nat.zero_le _⟩
      | none =>
          refine ⟨c :: front, back, ?_, Nat.succ_le_succ hlength⟩
          rw [hcut]
          rfl

namespace JavaSource

variable {rest t : Text}

/-! ### Characters and escapes -/

/-- The digits of an octal escape; the first of three is small. -/
def IsOctal (digits : Text) : Prop :=
  digits ≠ [] ∧ (∀ d ∈ digits, d ∈ "01234567".toList) ∧
    (digits.length ≤ 2 ∨ digits.length = 3 ∧ ∀ d ∈ digits.head?, d ∈ "0123".toList)

/-- **What stands for one character** in a literal.  The special characters are not written as they
are, and the number of a character does not spell them. -/
inductive Spelling (special : List Char) : Text → Prop where
  | plain {c : Char} (h : c ∉ special) : Spelling special [c]
  | simple {c : Char} (h : c ∈ "btnfrs\"'\\".toList) : Spelling special ['\\', c]
  | octal {digits : Text} (h : IsOctal digits) : Spelling special ('\\' :: digits)
  /-- The number of a character, with any number of the letters that announce it. -/
  | unicode {u digits : Text} {n : Nat} (hu : u ≠ []) (hletters : ∀ c ∈ u, c = 'u')
      (hlength : digits.length = 4) (hn : Xml.number? 16 Xml.hexDigit? digits = some n)
      (h : ∀ c ∈ special, c.toNat ≠ n) : Spelling special ('\\' :: (u ++ digits))

/-- What ends a line. -/
def IsLineEnd (t : Text) : Prop := t ∈ [['\n'], ['\r'], ['\r', '\n']]

/-- **The content of a text block**, behind a number of quotes in a row that are not escaped.  It
ends in front of the first three. -/
inductive BlockContent : Nat → Text → Prop where
  | nil : BlockContent 0 []
  | quote {n : Nat} {t : Text} (hn : n < 2) (h : BlockContent (n + 1) t) : BlockContent n ('"' :: t)
  | spelling {n : Nat} {p t : Text} (hp : Spelling ['"', '\\'] p) (h : BlockContent 0 t) :
      BlockContent n (p ++ t)
  /-- A line that goes on in the next one. -/
  | continued {n : Nat} {e t : Text} (he : IsLineEnd e) (h : BlockContent 0 t) :
      BlockContent n ('\\' :: (e ++ t))

/-- **The literals that a source text may hold.** -/
inductive IsLiteral : Lexeme → Prop where
  | string {parts : List Text} (h : ∀ p ∈ parts, Spelling ['"', '\\', '\n', '\r'] p) :
      IsLiteral (.quoted '"' parts.flatten)
  | character {p : Text} (h : Spelling ['\'', '\\', '\n', '\r'] p) : IsLiteral (.quoted '\'' p)
  /-- Only blanks may stand between the three quotes and the end of their line. -/
  | block {white e content : Text} (hwhite : ∀ c ∈ white, c ∈ " \t\x0c".toList)
      (he : IsLineEnd e) (h : BlockContent 0 content) :
      IsLiteral (.block (white ++ (e ++ content)))

/-- A text block in which three quotes stand behind a backslash. -/
def Lexeme.HidesQuotes (l : Lexeme) : Prop :=
  ∃ body, l = .block body ∧ '\\' :: tripleQuote <:+: body ++ ['"', '"']

theorem not_hidesQuotes_quoted {quote : Char} {body : Text} :
    ¬(Lexeme.quoted quote body).HidesQuotes := by
  rintro ⟨_, heq, -⟩
  cases heq

/-! ### Between two quotes -/

theorem hexDigit?_of_number? {digits : Text} {n : Nat}
    (h : Xml.number? 16 Xml.hexDigit? digits = some n) :
    ∀ d ∈ digits, ∃ v, Xml.hexDigit? d = some v := by
  intro d hd
  have hdigits : ∃ values, digits.mapM Xml.hexDigit? = some values := by
    unfold Xml.number? at h
    split at h
    · cases h
    · obtain ⟨values, hvalues, -⟩ := Option.bind_eq_some_iff.mp h
      exact ⟨values, hvalues⟩
  obtain ⟨values, hvalues⟩ := hdigits
  obtain ⟨v, -, hv⟩ := exists_of_forall₂ (R := fun v d => Xml.hexDigit? d = some v)
    (forall₂_of_mapM hvalues).flip hd
  exact ⟨v, hv⟩

/-- An escape is a backslash, a character that it protects, and maybe letters and digits. -/
theorem Spelling.shape {special : List Char} {p : Text} (h : Spelling special p) :
    (∃ c, c ∉ special ∧ p = [c]) ∨
      ∃ c r, p = '\\' :: c :: r ∧ ∀ d ∈ r, d ∉ "\"'\\\n".toList := by
  cases h with
  | @plain c h => exact .inl ⟨c, h, rfl⟩
  | @simple c h => exact .inr ⟨c, [], rfl, List.forall_mem_nil _⟩
  | @octal digits h =>
      obtain ⟨hne, hdigits, -⟩ := h
      obtain ⟨c, r, rfl⟩ := List.exists_cons_of_ne_nil hne
      refine .inr ⟨c, r, rfl, fun d hd => ?_⟩
      have hall : ∀ d ∈ "01234567".toList, d ∉ "\"'\\\n".toList := by simp
      exact hall d (hdigits d (List.mem_cons_of_mem _ hd))
  | @unicode u digits n hu hletters _ hn _ =>
      obtain ⟨c, u, rfl⟩ := List.exists_cons_of_ne_nil hu
      refine .inr ⟨c, u ++ digits, rfl, fun d hd hmem => ?_⟩
      rcases List.mem_append.mp hd with hd | hd
      · rw [hletters d (List.mem_cons_of_mem _ hd)] at hmem
        exact absurd hmem (by decide)
      · obtain ⟨v, hv⟩ := hexDigit?_of_number? hn d hd
        have hall : ∀ d ∈ "\"'\\\n".toList, Xml.hexDigit? d = none := by simp [Xml.hexDigit?]
        rw [hall d hmem] at hv
        cases hv

theorem QuotedBody.append_plain {quote : Char} {r : Text} (hr : ∀ d ∈ r, d ∉ "\"'\\\n".toList)
    (hquote : quote ∈ "\"'".toList) (h : QuotedBody quote t) : QuotedBody quote (r ++ t) := by
  induction r with
  | nil => exact h
  | cons d r ih =>
      rw [List.forall_mem_cons] at hr
      have hd : d ≠ '"' ∧ d ≠ '\'' ∧ d ≠ '\\' ∧ d ≠ '\n' := by simpa using hr.1
      refine .plain ?_ hd.2.2.1 hd.2.2.2 (ih hr.2)
      rintro rfl
      simp [hd.1, hd.2.1] at hquote

theorem QuotedBody.append_spelling {quote : Char} {special : List Char} {p : Text}
    (hspecial : ∀ c ∈ [quote, '\\', '\n'], c ∈ special) (hquote : quote ∈ "\"'".toList)
    (hp : Spelling special p) (h : QuotedBody quote t) : QuotedBody quote (p ++ t) := by
  rcases hp.shape with ⟨c, hc, rfl⟩ | ⟨c, r, rfl, hr⟩
  · have hne (d : Char) (hd : d ∈ [quote, '\\', '\n']) : c ≠ d := by
      rintro rfl
      exact hc (hspecial c hd)
    exact .plain (hne _ (by simp)) (hne _ (by simp)) (hne _ (by simp)) h
  · exact .escaped (h.append_plain hr hquote)

/-- **What stands in a string** is passed over quote by quote. -/
theorem quotedBody_of_spellings {quote : Char} {special : List Char} {parts : List Text}
    (hspecial : ∀ c ∈ [quote, '\\', '\n'], c ∈ special) (hquote : quote ∈ "\"'".toList)
    (h : ∀ p ∈ parts, Spelling special p) : QuotedBody quote parts.flatten := by
  induction parts with
  | nil => exact .nil
  | cons p parts ih =>
      rw [List.forall_mem_cons] at h
      exact .append_spelling hspecial hquote h.1 (ih h.2)

/-! ### Between three quotes and three more -/

theorem IsLineEnd.not_mem {e : Text} (he : IsLineEnd e) : ∀ d ∈ e, d ∉ ['"', '\\'] := by
  have hall : ∀ e ∈ [['\n'], ['\r'], ['\r', '\n']], ∀ d ∈ e, d ∉ ['"', '\\'] := by simp
  exact hall e he


/-- The first quotes behind others are fewer than those that would make three. -/
theorem BlockContent.not_prefixed {n : Nat} (h : BlockContent n t) :
    n ≤ 2 → ¬List.replicate (3 - n) '"' <+: t ++ ['"', '"'] := by
  have hother {n : Nat} {c : Char} {t : Text} (hn : n ≤ 2) (hc : c ≠ '"') :
      ¬List.replicate (3 - n) '"' <+: c :: t := by
    obtain ⟨m, hm⟩ : ∃ m, 3 - n = m + 1 := ⟨2 - n, by omega⟩
    rw [hm, List.replicate_succ, List.cons_prefix_cons]
    exact fun h => hc h.1.symm
  intro hn hprefix
  induction h with
  | nil => exact absurd hprefix (by decide)
  | @quote n t hn h ih =>
      have hsucc : 3 - n = 3 - (n + 1) + 1 := by omega
      rw [hsucc, List.replicate_succ, List.cons_append, List.cons_prefix_cons] at hprefix
      exact ih (by omega) hprefix.2
  | spelling hp _ _ =>
      rcases hp.shape with ⟨c, hc, rfl⟩ | ⟨c, r, rfl, -⟩
      · exact hother hn (fun heq => hc (by simp [heq])) hprefix
      · exact hother hn (by decide) hprefix
  | continued _ _ _ => exact hother hn (by decide) hprefix

/-- Three quotes do not begin at another character. -/
theorem infix_of_infix_append {r : Text} (hr : ∀ d ∈ r, d ≠ '"') :
    tripleQuote <:+: r ++ t → tripleQuote <:+: t := by
  induction r with
  | nil => exact id
  | cons d r ih =>
      rw [List.forall_mem_cons] at hr
      intro h
      rcases List.infix_cons_iff.mp h with hprefix | hinfix
      · exact absurd (List.cons_prefix_cons.mp hprefix).1.symm hr.1
      · exact ih hr.2 hinfix

/-- Three quotes behind a backslash begin with the character that it protects, or further on. -/
theorem infix_of_escape {c : Char} {r : Text} (hr : ∀ d ∈ r, d ≠ '"')
    (ih : tripleQuote <:+: t → '\\' :: tripleQuote <:+: t)
    (h : tripleQuote <:+: '\\' :: c :: (r ++ t)) :
    '\\' :: tripleQuote <:+: '\\' :: c :: (r ++ t) := by
  rcases List.infix_cons_iff.mp h with hprefix | hinfix
  · exact absurd (List.cons_prefix_cons.mp hprefix).1 (by decide)
  rcases List.infix_cons_iff.mp hinfix with hprefix | hinfix
  · exact (List.cons_prefix_cons.mpr ⟨rfl, hprefix⟩).isInfix
  · have hsuffix : t <:+ '\\' :: c :: (r ++ t) := List.suffix_append ('\\' :: c :: r) t
    exact (ih (infix_of_infix_append hr hinfix)).trans hsuffix.isInfix

/-- **Three quotes in a text block are behind a backslash**, since they would end it otherwise. -/
theorem BlockContent.infix_of_infix {n : Nat} (h : BlockContent n t) (hn : n ≤ 2)
    (hquotes : tripleQuote <:+: t ++ ['"', '"']) :
    '\\' :: tripleQuote <:+: t ++ ['"', '"'] := by
  induction h with
  | nil => exact absurd hquotes (by decide)
  | @quote n t hlt h ih =>
      rcases List.infix_cons_iff.mp hquotes with hprefix | hinfix
      · have hfewer : List.replicate (3 - n) '"' <+: tripleQuote :=
          List.prefix_replicate_iff.mpr
            ⟨List.length_replicate.trans_le (Nat.sub_le 3 n), by rw [List.length_replicate]⟩
        exact absurd (hfewer.trans hprefix) ((BlockContent.quote hlt h).not_prefixed hn)
      · exact List.infix_cons (ih (by omega) hinfix)
  | @spelling n p t hp h ih =>
      rcases hp.shape with ⟨c, hc, rfl⟩ | ⟨c, r, rfl, hr⟩
      · rcases List.infix_cons_iff.mp hquotes with hprefix | hinfix
        · refine absurd (List.cons_prefix_cons.mp hprefix).1 fun heq => hc ?_
          simp [← heq]
        · exact List.infix_cons (ih (Nat.zero_le 2) hinfix)
      · have hr : ∀ d ∈ r, d ≠ '"' := by
          rintro _ hd rfl
          exact hr _ hd (by decide)
        rw [List.cons_append, List.cons_append, List.cons_append, List.cons_append,
          List.append_assoc] at hquotes ⊢
        exact infix_of_escape hr (ih (Nat.zero_le 2)) hquotes
  | @continued n e t he h ih =>
      obtain ⟨c, r, rfl⟩ : ∃ c r, e = c :: r := by
        refine List.exists_cons_of_ne_nil ?_
        rintro rfl
        simp [IsLineEnd] at he
      have hr : ∀ d ∈ r, d ≠ '"' := fun d hd heq =>
        he.not_mem d (List.mem_cons_of_mem _ hd) (by simp [heq])
      rw [List.cons_append, List.cons_append, List.cons_append, List.append_assoc] at hquotes ⊢
      exact infix_of_escape hr (ih (Nat.zero_le 2)) hquotes

theorem BlockContent.append_plain {r : Text} (hr : ∀ d ∈ r, d ∉ ['"', '\\'])
    (h : BlockContent 0 t) : BlockContent 0 (r ++ t) := by
  induction r with
  | nil => exact h
  | cons d r ih =>
      rw [List.forall_mem_cons] at hr
      exact BlockContent.spelling (p := [d]) (.plain hr.1) (ih hr.2)

/-! ### Literals -/

section

variable {l : Lexeme}

/-- **A literal is a lexeme**, unless it hides quotes. -/
theorem IsLiteral.wellFormed (h : IsLiteral l) (hhides : ¬l.HidesQuotes) : l.WellFormed := by
  cases h with
  | string h => exact ⟨by decide, quotedBody_of_spellings (by simp) (by decide) h⟩
  | @character p h =>
      have hbody : QuotedBody '\'' (p ++ []) := .append_spelling (by simp) (by decide) h .nil
      rw [List.append_nil] at hbody
      exact ⟨by decide, hbody⟩
  | @block white e content hwhite he h =>
      have hopening : BlockContent 0 (white ++ (e ++ content)) := by
        refine .append_plain (fun c hc => ?_) (.append_plain (fun c hc => ?_) h)
        · have hall : ∀ c ∈ " \t\x0c".toList, c ∉ ['"', '\\'] := by simp
          exact hall c (hwhite c hc)
        · exact he.not_mem c hc
      exact fun hquotes => hhides ⟨_, rfl, hopening.infix_of_infix (Nat.zero_le 2) hquotes⟩

/-- Two quotes and a third begin a text block; the reader does not stop in front of the third. -/
theorem afterLiteral_of_not_endsBefore {quote : Char} {body : Text}
    (h : ¬(Lexeme.quoted quote body).EndsBefore rest) :
    afterLiteral quote (body ++ [quote] ++ rest) ≠ rest := by
  simp only [Lexeme.EndsBefore, Classical.not_imp, not_not] at h
  obtain ⟨rfl, rfl, hhead⟩ := h
  obtain ⟨r, rfl⟩ : ∃ r, rest = '"' :: r := by
    cases rest with
    | nil => cases hhead
    | cons c r =>
        cases hhead
        exact ⟨r, rfl⟩
  intro heq
  have hlength := afterPattern_length tripleQuote r
  have heq : afterPattern tripleQuote r = '"' :: r := heq
  rw [heq, List.length_cons] at hlength
  omega

/-- A text block that hides quotes ends too early for the reader. -/
theorem afterPattern_ne {pattern : Text} (hne : pattern ≠ [])
    (h : pattern <:+: t ++ pattern.dropLast) :
    afterPattern pattern (t ++ (pattern ++ rest)) ≠ rest := by
  obtain ⟨before, after, hafter⟩ := h
  have hlast := List.dropLast_append_getLast hne
  have htext : t ++ (pattern ++ rest) =
      before ++ (pattern ++ (after ++ [pattern.getLast hne] ++ rest)) := by
    rw [← List.append_assoc before, ← List.append_assoc (before ++ pattern),
      ← List.append_assoc (before ++ pattern), hafter, List.append_assoc t, hlast,
      List.append_assoc]
  obtain ⟨front, back, hcut, hfront⟩ :=
    cutAtPattern_of_occurs pattern before (after ++ [pattern.getLast hne] ++ rest)
  rw [htext, afterPattern, afterFirst?_eq, hcut]
  intro heq
  have heq : back = rest := heq
  have hwhole := congrArg List.length (cutAtPattern_eq_some hcut)
  have hbefore := congrArg List.length hafter
  have htotal := congrArg List.length htext
  have hpattern := congrArg List.length hlast
  simp only [List.length_append, List.length_singleton] at hwhole hbefore htotal hpattern
  rw [heq] at hwhole
  omega

/-- **A literal is passed over exactly if it hides no quotes.**  Behind its opening quote the reader
goes on right behind its closing one; then none of its tokens comes from the literal, whatever is in
front of the literal and whatever follows.  (Two quotes are no literal in front of a third.) -/
theorem afterLiteral_of_isLiteral (h : IsLiteral l) (rest : Text) :
    ∃ quote behind, l.text = quote :: behind ∧
      (afterLiteral quote (behind ++ rest) = rest ↔ l.EndsBefore rest ∧ ¬l.HidesQuotes) ∧
      (l.EndsBefore rest ∧ ¬l.HidesQuotes → ∀ (ls : List Lexeme) (t : Text),
        Spells (l.text ++ rest) ls t →
          tokens t = lexemeTokens 0 ls ++ tokensAt (depthAfter 0 ls) rest) := by
  have htokens (hpassed : l.EndsBefore rest ∧ ¬l.HidesQuotes) (ls : List Lexeme) (t : Text)
      (ht : Spells (l.text ++ rest) ls t) :
      tokens t = lexemeTokens 0 ls ++ tokensAt (depthAfter 0 ls) rest := by
    have hl : l.tokens (depthAfter 0 ls) = [] ∧
        l.depthBehind (depthAfter 0 ls) = depthAfter 0 ls := by
      cases h <;> exact ⟨rfl, rfl⟩
    rw [tokens, ht.tokensAt_eq, tokensAt_lexeme (h.wellFormed hpassed.2) hpassed.1, hl.1, hl.2,
      List.nil_append]
  have hquoted {quote : Char} {body : Text} (h : IsLiteral (.quoted quote body)) :
      afterLiteral quote (body ++ [quote] ++ rest) = rest ↔
        (Lexeme.quoted quote body).EndsBefore rest ∧ ¬(Lexeme.quoted quote body).HidesQuotes := by
    rw [and_iff_left not_hidesQuotes_quoted]
    constructor
    · exact fun heq => by_contra fun hends => afterLiteral_of_not_endsBefore hends heq
    · intro hends
      rw [List.append_assoc]
      exact afterLiteral_quoted (h.wellFormed not_hidesQuotes_quoted) hends
  cases h with
  | string hparts => exact ⟨_, _, rfl, hquoted (.string hparts), htokens⟩
  | character hp => exact ⟨_, _, rfl, hquoted (.character hp), htokens⟩
  | @block white e content hwhite he hcontent =>
      have hblock := IsLiteral.block hwhite he hcontent
      refine ⟨_, _, rfl, ?_, htokens⟩
      generalize white ++ (e ++ content) = body at hblock
      have hafter : afterLiteral '"' ('"' :: '"' :: (body ++ tripleQuote) ++ rest) =
          afterPattern tripleQuote (body ++ (tripleQuote ++ rest)) := by
        rw [List.cons_append, List.cons_append, List.append_assoc]
        rfl
      have hends : (Lexeme.block body).EndsBefore rest := trivial
      refine (iff_of_eq (congrArg (· = rest) hafter)).trans ?_
      rw [and_iff_right hends]
      constructor
      · rintro heq ⟨_, hbody, hquotes⟩
        cases hbody
        refine afterPattern_ne (by decide) ?_ heq
        exact (List.suffix_cons '\\' tripleQuote).isInfix.trans hquotes
      · exact fun hhides => afterPattern_append rest (hblock.wellFormed hhides)

end

/-- A string with a quote and a backslash, both escaped, in a row. -/
def escapedString : Lexeme := .quoted '"' "a\\\"\\\\".toList

theorem afterLiteral_of_isLiteral_escaped :
    IsLiteral escapedString ∧
      afterLiteral '"' "a\\\"\\\\\"; class B".toList = "; class B".toList ∧
      tokens "\"a\\\"\\\\\"; class B".toList = tokens "; class B".toList := by
  have hparts : ∀ p ∈ [['a'], ['\\', '"'], ['\\', '\\']],
      Spelling ['"', '\\', '\n', '\r'] p := by
    simp only [List.forall_mem_cons]
    exact ⟨.plain (by decide), .simple (by decide), .simple (by decide), List.forall_mem_nil _⟩
  have hstring : IsLiteral escapedString := .string hparts
  have hpassed : escapedString.EndsBefore "; class B".toList ∧ ¬escapedString.HidesQuotes :=
    ⟨by decide, not_hidesQuotes_quoted⟩
  obtain ⟨quote, behind, htext, hafter, htokens⟩ :=
    afterLiteral_of_isLiteral hstring "; class B".toList
  cases htext
  exact ⟨hstring, hafter.mpr hpassed, htokens hpassed [] _ .done⟩

/-- A text block that holds three quotes, of which the first is escaped, and behind them a type. -/
def hidingBlock : Lexeme :=
  .block ('\n' :: '\\' :: '"' :: '"' :: '"' ::
    ['c', 'l', 'a', 's', 's', ' ', 'X', ' ', '\x7b', '\x7d'])

/-- Its end is taken for the beginning of another one, and what it hides for code. -/
theorem tokens_behind_hidingBlock :
    IsLiteral hidingBlock ∧ hidingBlock.HidesQuotes ∧
      (tokens ("String s = ".toList ++ (hidingBlock.text ++ "; class T \x7b\x7d".toList))).map
        Token.text = ["String", "s", "=", "class", "X", "\x7b", "\x7d"].map String.toList := by
  have hcode : BlockContent 0 ['l', 'a', 's', 's', ' ', 'X', ' ', '\x7b', '\x7d'] :=
    .append_plain (r := ['l', 'a', 's', 's', ' ', 'X', ' ', '\x7b', '\x7d']) (by simp) .nil
  have hquotes : BlockContent 0
      ('"' :: '"' :: ['c', 'l', 'a', 's', 's', ' ', 'X', ' ', '\x7b', '\x7d']) :=
    .quote (by decide) (.quote (by decide) (.spelling (p := ['c']) (.plain (by decide)) hcode))
  have hcontent := BlockContent.spelling (n := 0) (p := ['\\', '"']) (.simple (by decide)) hquotes
  have hwhite : ∀ c ∈ ([] : Text), c ∈ " \t\x0c".toList := List.forall_mem_nil _
  refine ⟨.block (e := ['\n']) hwhite List.mem_cons_self hcontent, ⟨_, rfl, by decide⟩, ?_⟩
  decide +kernel

end JavaSource

end Unjar
