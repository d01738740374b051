import Mathlib.Data.Bool.AllAny
import Unjar.Proofs.Filing
import Unjar.Proofs.JavaSource.Lexeme

/-!
The heading of a source text.

In front of its first type a source text may declare its package and import names, and modifiers and
annotations may stand there.  None of these tokens is taken for a declaration: a word that could
announce one stands within braces, or a dot in front of it makes it part of an expression, or no
identifier follows it.  So the scan reaches the keyword in front of the first type, with the package
that was declared, whatever stands in comments, in literals and behind the type.

The names of annotations and in their arguments may have letters beyond ASCII, but a name must not
end with one of the announcing words behind such a letter: it is read as two tokens, and the second
is taken for the word.  `declaredNames_differs` has a text with such a name.

Main definitions:

* `Unjar.JavaSource.Quiet` — tokens that announce nothing;
* `Unjar.JavaSource.Arguments`, `Unjar.JavaSource.Annotation`, `Unjar.JavaSource.Item`,
  `Unjar.JavaSource.Heading` — what a heading consists of.

Main results:

* `Unjar.JavaSource.declaredIn_quiet` — quiet tokens are passed over;
* `Unjar.JavaSource.Item.passes` — what stands in front of the type is quiet;
* `Unjar.JavaSource.declaredNames_of_spells` — **the package and the type of a heading are found**.
-/

set_option autoImplicit false

namespace Unjar.JavaSource

variable {previous : Option Text} {package : List Text} {ls : List Lexeme}

/-! ### Quiet tokens -/

/-- The words that announce a declaration. -/
def announcing : List Text := "package".toList :: typeKeywords

theorem isIdentifier_of_mem_typeKeywords {word : Text} (h : word ∈ typeKeywords) :
    isIdentifier word = true ∧ word ≠ "package".toList :=
  (by decide : ∀ word ∈ typeKeywords, isIdentifier word = true ∧ word ≠ "package".toList) word h

/-- A single character announces nothing. -/
theorem singleton_not_mem_announcing (c : Char) : [c] ∉ announcing := fun h =>
  (by decide : ∀ word ∈ announcing, word.length ≠ 1) [c] h rfl

/-- Tokens that announce nothing, behind a token of the text `previous`: an announcing word outside
braces is part of an expression or has a token behind it that is no identifier. -/
def Quiet : Option Text → List Token → Prop
  | _, [] => True
  | previous, token :: more =>
    (token.depth = 0 → token.text ∈ announcing →
      (token.text ∈ typeKeywords ∧ previous = some ['.']) ∨
        ∃ next ∈ more.head?, isIdentifier next.text = false) ∧
    Quiet (some token.text) more

/-- The text of the last token. -/
def lastText (previous : Option Text) (tokens : List Token) : Option Text :=
  tokens.foldl (fun _ token => some token.text) previous

theorem lastText_append (previous : Option Text) (a b : List Token) :
    lastText previous (a ++ b) = lastText (lastText previous a) b := List.foldl_append

theorem Quiet.append {a b : List Token} (ha : Quiet previous a)
    (hb : Quiet (lastText previous a) b) : Quiet previous (a ++ b) := by
  induction a generalizing previous with
  | nil => exact hb
  | cons token a ih =>
      obtain ⟨htoken, ha⟩ := ha
      refine ⟨fun hdepth hword => (htoken hdepth hword).imp_right ?_, ih ha hb⟩
      rintro ⟨next, hnext, hidentifier⟩
      refine ⟨next, ?_, hidentifier⟩
      cases a with
      | nil => cases hnext
      | cons _ _ => exact hnext

/-- Tokens within braces are quiet. -/
theorem quiet_of_depth {tokens : List Token} (h : ∀ token ∈ tokens, token.depth ≠ 0) :
    Quiet previous tokens := by
  induction tokens generalizing previous with
  | nil => trivial
  | cons token tokens ih =>
      rw [List.forall_mem_cons] at h
      exact ⟨fun hdepth => absurd hdepth h.1, ih h.2⟩

theorem qualifiedName_eq_nil {tokens : List Token} {next : Token} (hnext : next ∈ tokens.head?)
    (h : isIdentifier next.text = false) : qualifiedName [] tokens = [] := by
  obtain ⟨more, rfl⟩ := List.head?_eq_some_iff.mp hnext
  cases more with
  | nil => rfl
  | cons stop more => rw [qualifiedName, if_pos (by rw [h]; rfl)]

theorem typeAfter_eq_none {tokens : List Token}
    (h : previous = some ['.'] ∨ ∃ next ∈ tokens.head?, isIdentifier next.text = false) :
    typeAfter previous tokens = none := by
  cases tokens with
  | nil => rfl
  | cons candidate more =>
      rw [typeAfter]
      rcases h with rfl | ⟨next, hnext, hidentifier⟩
      · rfl
      · cases hnext
        rw [hidentifier]
        split <;> rfl

/-- **Quiet tokens are passed over.** -/
theorem declaredIn_quiet {tokens : List Token} (h : Quiet previous tokens) (package : List Text)
    (more : List Token) :
    declaredIn previous package (tokens ++ more) =
      declaredIn (lastText previous tokens) package more := by
  induction tokens generalizing previous with
  | nil => rfl
  | cons token tokens ih =>
      obtain ⟨htoken, htokens⟩ := h
      have hrest := ih htokens
      have happend {next : Token} (hnext : next ∈ tokens.head?) :
          next ∈ (tokens ++ more).head? := by
        rw [List.head?_append, hnext]
        rfl
      rw [List.cons_append, declaredIn]
      split
      · exact hrest
      next hdepth =>
      split
      · next hpackage =>
        -- the word is no part of an expression, so no name follows it
        rw [Bool.and_eq_true_iff, List.isEmpty_iff, beq_iff_eq] at hpackage
        obtain ⟨rfl, hword⟩ := hpackage
        rcases htoken (not_not.mp hdepth) (by rw [hword]; exact List.mem_cons_self) with
          ⟨hkeyword, -⟩ | ⟨next, hnext, hidentifier⟩
        · rw [hword] at hkeyword
          exact absurd hkeyword (by decide)
        · rw [qualifiedName_eq_nil (happend hnext) hidentifier]
          exact hrest
      · split
        · next hkeyword =>
          have hword : token.text ∈ announcing :=
            List.mem_cons_of_mem _ (List.contains_iff_mem.mp hkeyword)
          have hnone : typeAfter previous (tokens ++ more) = none := by
            refine typeAfter_eq_none ((htoken (not_not.mp hdepth) hword).imp And.right ?_)
            rintro ⟨next, hnext, hidentifier⟩
            exact ⟨next, happend hnext, hidentifier⟩
          rw [hnone]
          exact hrest
        · exact hrest

/-! ### Names -/

/-- A name whose last piece announces nothing. -/
def EndsPlainly (t : Text) : Prop := ∀ piece ∈ (pieces t).getLast?, piece ∉ announcing

instance (t : Text) : Decidable (EndsPlainly t) := inferInstanceAs (Decidable (∀ _ ∈ _, _))

/-- Of an ASCII name this is asked of the whole name. -/
theorem endsPlainly_of_isIdentifier {t : Text} (h : isIdentifier t = true) :
    EndsPlainly t ↔ t ∉ announcing := by
  simp [EndsPlainly, pieces_of_isIdentifier h]

/-- What follows a run of ASCII characters in a name is another character. -/
theorem isIdentifier_of_mem_head? {r piece : Text}
    (h : piece ∈ (pieces (r.dropWhile isIdentifierPart)).head?) : isIdentifier piece = false := by
  have hhead := List.head?_dropWhile_not isIdentifierPart r
  cases hdrop : r.dropWhile isIdentifierPart with
  | nil =>
      rw [hdrop, pieces] at h
      cases h
  | cons d r' =>
      rw [hdrop] at hhead h
      have hpart : isIdentifierPart d = false := by simpa using hhead
      have hstart : isIdentifierStart d = false := (Bool.or_eq_false_iff.mp hpart).1
      rw [pieces, if_neg (by rw [hstart]; exact Bool.false_ne_true)] at h
      cases h
      rw [isIdentifier, hstart, Bool.false_and]

/-- Of the pieces of a name only the last one can be followed by an identifier. -/
theorem quiet_name {t : Text} {tail : List Token} (previous : Option Text) (depth : Nat)
    (ht : EndsPlainly t ∨ ∃ next ∈ tail.head?, isIdentifier next.text = false)
    (htail : ∀ previous, Quiet previous tail) :
    Quiet previous ((Lexeme.name t).tokens depth ++ tail) := by
  unfold EndsPlainly at ht
  rw [Lexeme.tokens]
  fun_induction pieces t generalizing previous with
  | case1 => exact htail previous
  | case2 c r hc ih =>
      cases hrest : pieces (r.dropWhile isIdentifierPart) with
      | nil =>
          rw [hrest] at ht
          exact ⟨fun _ hword => .inr (ht.resolve_left fun h => h _ rfl hword), htail _⟩
      | cons next more =>
          have hnext : isIdentifier next = false :=
            isIdentifier_of_mem_head? (by rw [hrest]; rfl)
          rw [hrest] at ih ht
          exact ⟨fun _ _ => .inr ⟨⟨next, depth⟩, rfl, hnext⟩, ih _ ht⟩
  | case3 c r hc ih =>
      refine ⟨fun _ h => absurd h (singleton_not_mem_announcing c), ih _ (ht.imp_left ?_)⟩
      intro h piece hpiece
      refine h piece ?_
      cases hr : pieces r with
      | nil =>
          rw [hr] at hpiece
          cases hpiece
      | cons next more =>
          rw [hr] at hpiece
          exact hpiece

theorem flatten_pieces (t : Text) : (pieces t).flatten = t := by
  fun_induction pieces t with
  | case1 => rfl
  | case2 c r hc ih => rw [List.flatten_cons, ih, List.cons_append, List.takeWhile_append_dropWhile]
  | case3 c r hc ih => rw [List.flatten_cons, ih]; rfl

/-- A name does not end with a dot. -/
theorem lastText_name {t : Text} (h : (Lexeme.name t).WellFormed) (previous : Option Text)
    (depth : Nat) : lastText previous ((Lexeme.name t).tokens depth) ≠ some ['.'] := by
  obtain ⟨c, r, rfl, hc, hr⟩ := h
  have hflatten := flatten_pieces (c :: r)
  rcases List.eq_nil_or_concat (pieces (c :: r)) with hnil | ⟨init, last, hlast⟩
  · rw [hnil] at hflatten
    cases hflatten
  · rw [List.concat_eq_append] at hlast
    rw [Lexeme.tokens, hlast, List.map_append, lastText_append]
    intro hdot
    have hdot : last = ['.'] := Option.some.inj hdot
    have hmem : '.' ∈ c :: r := by
      rw [← hflatten, hlast, hdot]
      simp
    rcases List.mem_cons.mp hmem with rfl | hmem
    · exact absurd hc (by decide)
    · exact absurd (hr '.' hmem) (by decide)

/-! ### The parts of a heading -/

/-- Lexemes whose braces are balanced. -/
inductive Balanced : List Lexeme → Prop where
  | nil : Balanced []
  | other {l : Lexeme} {ls : List Lexeme} (hopening : l ≠ .opening) (hclosing : l ≠ .closing)
      (h : Balanced ls) : Balanced (l :: ls)
  | braces {inner ls : List Lexeme} (hinner : Balanced inner) (h : Balanced ls) :
      Balanced (.opening :: (inner ++ .closing :: ls))

/-- **The arguments of an annotation**, behind the lexeme `previous`: names, keywords behind a dot,
signs, literals, and anything in balanced braces. -/
inductive Arguments : Lexeme → List Lexeme → Prop where
  | nil {previous : Lexeme} : Arguments previous []
  | name {previous : Lexeme} {t : Text} {ls : List Lexeme}
      (ht : EndsPlainly t ∨ t ∈ typeKeywords ∧ previous = .sign '.')
      (h : Arguments (.name t) ls) : Arguments previous (.name t :: ls)
  | sign {previous : Lexeme} {c : Char} {ls : List Lexeme} (h : Arguments (.sign c) ls) :
      Arguments previous (.sign c :: ls)
  | quoted {previous : Lexeme} {quote : Char} {body : Text} {ls : List Lexeme}
      (h : Arguments (.quoted quote body) ls) : Arguments previous (.quoted quote body :: ls)
  | block {previous : Lexeme} {body : Text} {ls : List Lexeme} (h : Arguments (.block body) ls) :
      Arguments previous (.block body :: ls)
  | braces {previous : Lexeme} {inner ls : List Lexeme} (hinner : Balanced inner)
      (h : Arguments .closing ls) : Arguments previous (.opening :: (inner ++ .closing :: ls))

/-- The lexemes of a dotted name. -/
def dotted : List Text → List Lexeme
  | [] => []
  | [part] => [.name part]
  | part :: parts => .name part :: .sign '.' :: dotted parts

/-- **An annotation**: its name, whose last part ends plainly, and perhaps arguments in brackets. -/
inductive Annotation : List Lexeme → Prop where
  | marker {parts : List Text} (hlast : ∃ last ∈ parts.getLast?, EndsPlainly last) :
      Annotation (.sign '@' :: dotted parts)
  | call {parts : List Text} {arguments : List Lexeme}
      (hlast : ∃ last ∈ parts.getLast?, EndsPlainly last)
      (harguments : Arguments (.sign '(') arguments) :
      Annotation (.sign '@' :: (dotted parts ++ .sign '(' :: (arguments ++ [.sign ')'])))

/-- The words for modifiers. -/
def modifiers : List Text :=
  ["abstract", "default", "final", "native", "private", "protected", "public", "sealed", "static",
    "strictfp", "synchronized", "transient", "volatile"].map String.toList

/-- **What may stand between the package and the type.** -/
inductive Item : List Lexeme → Prop where
  /-- An import, perhaps of what is static, and perhaps of all members. -/
  | importing {parts : List Text} (hparts : parts ≠ []) (static all : Bool) :
      Item (.name "import".toList ::
        ((if static then [.name "static".toList] else []) ++ (dotted parts ++
          ((if all then [.sign '.', .sign '*'] else []) ++ [.sign ';']))))
  | modifier {word : Text} (h : word ∈ modifiers) : Item [.name word]
  | nonSealed : Item [.name "non".toList, .sign '-', .name "sealed".toList]
  | annotation {ls : List Lexeme} (h : Annotation ls) : Item ls

/-- The declaration of a package, or none. -/
inductive PackageClause : List Lexeme → List Text → Prop where
  | absent : PackageClause [] []
  | declared {annotations : List (List Lexeme)} {package : List Text}
      (hannotations : ∀ ls ∈ annotations, Annotation ls) (hne : package ≠ [])
      (hpackage : ∀ part ∈ package, IsSimpleName part) :
      PackageClause
        (annotations.flatten ++ .name "package".toList :: (dotted package ++ [.sign ';'])) package

/-- What stands in front of the name of a type. -/
inductive TypeKeyword : List Lexeme → Prop where
  | word {word : Text} (h : word ∈ typeKeywords) : TypeKeyword [.name word]
  | annotationType : TypeKeyword [.sign '@', .name "interface".toList]

/-- **A heading** with the package and the type that it declares. -/
inductive Heading : List Lexeme → List Text → Text → Prop where
  | mk {clause keyword : List Lexeme} {items : List (List Lexeme)} {package : List Text}
      {type : Text} (hclause : PackageClause clause package) (hitems : ∀ ls ∈ items, Item ls)
      (hkeyword : TypeKeyword keyword) (htype : IsSimpleName type) (hreserved : type ∉ reserved) :
      Heading (clause ++ (items.flatten ++ (keyword ++ [.name type]))) package type

/-! ### What is passed over -/

theorem depthAfter_append (depth : Nat) (a b : List Lexeme) :
    depthAfter depth (a ++ b) = depthAfter (depthAfter depth a) b := List.foldl_append

theorem lexemeTokens_append (depth : Nat) (a b : List Lexeme) :
    lexemeTokens depth (a ++ b) = lexemeTokens depth a ++ lexemeTokens (depthAfter depth a) b := by
  induction a generalizing depth with
  | nil => rfl
  | cons l a ih =>
      rw [List.cons_append, lexemeTokens, ih, lexemeTokens, List.append_assoc]
      rfl

/-- **Lexemes that announce nothing**, wherever they stand, and after which no keyword belongs to an
expression. -/
structure Passes (ls : List Lexeme) : Prop where
  depth : depthAfter 0 ls = 0
  quiet : ∀ previous, Quiet previous (lexemeTokens 0 ls)
  last : ∀ previous, previous ≠ some ['.'] → lastText previous (lexemeTokens 0 ls) ≠ some ['.']

namespace Passes

theorem nil : Passes [] := ⟨rfl, fun _ => trivial, fun _ h => h⟩

theorem append {a b : List Lexeme} (ha : Passes a) (hb : Passes b) : Passes (a ++ b) := by
  constructor
  · rw [depthAfter_append, ha.depth, hb.depth]
  · intro previous
    rw [lexemeTokens_append, ha.depth]
    exact (ha.quiet previous).append (hb.quiet _)
  · intro previous hprevious
    rw [lexemeTokens_append, ha.depth, lastText_append]
    exact hb.last _ (ha.last _ hprevious)

theorem flatten {lists : List (List Lexeme)} (h : ∀ ls ∈ lists, Passes ls) :
    Passes lists.flatten := by
  induction lists with
  | nil => exact nil
  | cons ls lists ih =>
      rw [List.forall_mem_cons] at h
      exact h.1.append (ih h.2)

end Passes

theorem lexemeTokens_closing (depth : Nat) (ls : List Lexeme) :
    lexemeTokens (depth + 1) (.closing :: ls) = ⟨['\x7d'], depth⟩ :: lexemeTokens depth ls := rfl

/-- Nothing in balanced braces is outside of them. -/
theorem Balanced.depth_le {inner : List Lexeme} (h : Balanced inner) (depth : Nat) :
    depthAfter depth inner = depth ∧ ∀ token ∈ lexemeTokens depth inner, depth ≤ token.depth := by
  induction h generalizing depth with
  | nil => exact ⟨rfl, fun _ h => by cases h⟩
  | @other l ls hopening hclosing _ ih =>
      have hl : l.depthBehind depth = depth ∧ ∀ token ∈ l.tokens depth, depth ≤ token.depth := by
        cases l with
        | opening => exact absurd rfl hopening
        | closing => exact absurd rfl hclosing
        | _ => simp [Lexeme.depthBehind, Lexeme.tokens]
      refine ⟨?_, ?_⟩
      · rw [depthAfter, List.foldl_cons, hl.1]
        exact (ih depth).1
      · rw [lexemeTokens, List.forall_mem_append, hl.1]
        exact ⟨hl.2, (ih depth).2⟩
  | @braces inner ls _ _ ihinner ih =>
      obtain ⟨hdepth, hinner⟩ := ihinner (depth + 1)
      refine ⟨?_, ?_⟩
      · change depthAfter (depth + 1) (inner ++ .closing :: ls) = depth
        rw [depthAfter_append, hdepth]
        exact (ih depth).1
      · change ∀ token ∈ ⟨_, depth⟩ :: lexemeTokens (depth + 1) (inner ++ .closing :: ls), _
        rw [lexemeTokens_append, hdepth, List.forall_mem_cons, List.forall_mem_append]
        refine ⟨Nat.le_refl _, fun token h => Nat.le_of_succ_le (hinner token h), ?_⟩
        rw [lexemeTokens_closing, List.forall_mem_cons]
        exact ⟨Nat.le_refl _, (ih depth).2⟩

/-- A token that is no announcing word is quiet. -/
theorem quiet_cons {token : Token} {tokens : List Token} (htoken : token.text ∉ announcing)
    (h : Quiet (some token.text) tokens) : Quiet previous (token :: tokens) :=
  ⟨fun _ hword => absurd hword htoken, h⟩

/-- Arguments announce nothing, and their braces are balanced. -/
theorem Arguments.quiet {l : Lexeme} (h : Arguments l ls) (previous : Option Text)
    (hprevious : l = .sign '.' → previous = some ['.']) :
    depthAfter 0 ls = 0 ∧ Quiet previous (lexemeTokens 0 ls) := by
  induction h generalizing previous with
  | nil => exact ⟨rfl, trivial⟩
  | @name l t ls ht _ ih =>
      have hls (previous : Option Text) := ih previous fun h => by cases h
      refine ⟨(hls none).1, ?_⟩
      rcases ht with ht | ⟨hkeyword, hdot⟩
      · exact quiet_name previous 0 (.inl ht) fun previous => (hls previous).2
      · rw [lexemeTokens, Lexeme.tokens_name (isIdentifier_of_mem_typeKeywords hkeyword).1]
        exact ⟨fun _ _ => .inl ⟨hkeyword, hprevious hdot⟩, (hls _).2⟩
  | @sign l c ls _ ih =>
      have hls := ih (some [c]) fun h => by cases h; rfl
      exact ⟨hls.1, quiet_cons (singleton_not_mem_announcing c) hls.2⟩
  | @quoted l quote body ls _ ih => exact ih previous fun h => by cases h
  | @block l body ls _ ih => exact ih previous fun h => by cases h
  | @braces l inner ls hinner _ ih =>
      obtain ⟨hdepth, hdeep⟩ := hinner.depth_le 1
      have hls := ih (some ['\x7d']) fun h => by cases h
      refine ⟨?_, quiet_cons (by decide) ?_⟩
      · change depthAfter 1 (inner ++ .closing :: ls) = 0
        rw [depthAfter_append, hdepth]
        exact hls.1
      · change Quiet _ (lexemeTokens 1 (inner ++ .closing :: ls))
        rw [lexemeTokens_append, hdepth]
        refine Quiet.append (quiet_of_depth fun token h => ?_) (quiet_cons (by decide) hls.2)
        have := hdeep token h
        omega

theorem depthAfter_dotted (parts : List Text) (depth : Nat) :
    depthAfter depth (dotted parts) = depth := by
  fun_induction dotted parts with
  | case1 | case2 => rfl
  | case3 part parts _ ih => exact ih

/-- A dotted name announces nothing if it ends plainly or what follows is no identifier. -/
theorem quiet_dotted {parts : List Text} (tail : List Token) (previous : Option Text)
    (h : (∀ last ∈ parts.getLast?, EndsPlainly last) ∨
      ∃ next ∈ tail.head?, isIdentifier next.text = false)
    (htail : ∀ previous, Quiet previous tail) :
    Quiet previous (lexemeTokens 0 (dotted parts) ++ tail) := by
  fun_induction dotted parts generalizing previous with
  | case1 => exact htail previous
  | case2 part =>
      have hpart := quiet_name (t := part) previous 0 (h.imp_left fun h => h part rfl) htail
      simpa [lexemeTokens] using hpart
  | case3 part parts hne ih =>
      have hmore (previous : Option Text) : Quiet previous (⟨['.'], 0⟩ ::
          (lexemeTokens 0 (dotted parts) ++ tail)) := by
        refine quiet_cons (by decide) (ih _ (h.imp_left fun h last hlast => h last ?_))
        obtain ⟨first, others, rfl⟩ := List.exists_cons_of_ne_nil hne
        rw [List.getLast?_cons_cons]
        exact hlast
      have hpart := quiet_name (t := part) previous 0 (.inr ⟨_, rfl, by decide⟩) hmore
      simpa [lexemeTokens, Lexeme.tokens, Lexeme.depthBehind] using hpart

theorem lastText_dotted {parts : List Text} (hne : parts ≠ [])
    (hparts : ∀ part ∈ parts, (Lexeme.name part).WellFormed) (previous : Option Text) :
    lastText previous (lexemeTokens 0 (dotted parts)) ≠ some ['.'] := by
  fun_induction dotted parts generalizing previous with
  | case1 => exact absurd rfl hne
  | case2 part =>
      rw [lexemeTokens, lexemeTokens, List.append_nil]
      exact lastText_name (hparts part List.mem_cons_self) previous 0
  | case3 part parts hmore ih =>
      rw [List.forall_mem_cons] at hparts
      rw [lexemeTokens, lastText_append]
      exact ih hmore hparts.2 _

/-- The last part of a name that ends plainly. -/
theorem ne_nil_of_getLast? {parts : List Text} {P : Text → Prop}
    (h : ∃ last ∈ parts.getLast?, P last) : parts ≠ [] ∧ ∀ last ∈ parts.getLast?, P last := by
  obtain ⟨last, hlast, hP⟩ := h
  refine ⟨?_, fun last' hlast' => ?_⟩
  · rintro rfl
    cases hlast
  · obtain rfl : last = last' := Option.mem_unique hlast hlast'
    exact hP

namespace Passes

theorem sign {c : Char} (hc : c ≠ '.') : Passes [.sign c] := by
  refine ⟨rfl, fun _ => quiet_cons (singleton_not_mem_announcing c) trivial, ?_⟩
  intro _ _ hdot
  cases hdot
  exact hc rfl

theorem word {t : Text} (ht : isIdentifier t = true) (hword : t ∉ announcing) :
    Passes [.name t] := by
  have htokens : lexemeTokens 0 [.name t] = [⟨t, 0⟩] := by
    rw [lexemeTokens, Lexeme.tokens_name ht]
    rfl
  refine ⟨rfl, ?_, ?_⟩
  · rw [htokens]
    exact fun _ => quiet_cons hword trivial
  · rw [htokens]
    intro _ _ hdot
    cases hdot
    exact absurd ht (by decide)

/-- A dotted name that a sign follows. -/
theorem dotted_sign (parts : List Text) {c : Char} (hc : (Lexeme.sign c).WellFormed)
    {tail : List Lexeme} (htail : Passes (.sign c :: tail))
    (hlast : ∀ previous, lastText previous (lexemeTokens 0 (.sign c :: tail)) ≠ some ['.']) :
    Passes (dotted parts ++ .sign c :: tail) := by
  have hidentifier : isIdentifier [c] = false := by
    rw [isIdentifier, hc.2.1, Bool.false_and]
  constructor
  · rw [depthAfter_append, depthAfter_dotted, htail.depth]
  · intro previous
    rw [lexemeTokens_append, depthAfter_dotted]
    exact quiet_dotted _ previous (.inr ⟨_, rfl, hidentifier⟩) htail.quiet
  · intro previous _
    rw [lexemeTokens_append, depthAfter_dotted, lastText_append]
    exact hlast _

end Passes

theorem mem_dotted {parts : List Text} {part : Text} (h : part ∈ parts) :
    .name part ∈ dotted parts := by
  fun_induction dotted parts with
  | case1 => cases h
  | case2 first =>
      rw [List.mem_singleton.mp h]
      exact List.mem_singleton_self _
  | case3 first parts _ ih =>
      rcases List.mem_cons.mp h with rfl | h
      · exact List.mem_cons_self
      · exact List.mem_cons_of_mem _ (List.mem_cons_of_mem _ (ih h))

/-- The name of an annotation announces nothing. -/
theorem passes_at {parts : List Text} (hlast : ∃ last ∈ parts.getLast?, EndsPlainly last)
    (hparts : ∀ l ∈ dotted parts, l.WellFormed) : Passes (.sign '@' :: dotted parts) := by
  obtain ⟨hne, hplain⟩ := ne_nil_of_getLast? hlast
  refine ⟨depthAfter_dotted parts 0, fun _ => quiet_cons (by decide) ?_, fun _ _ => ?_⟩
  · have hquiet := quiet_dotted [] (some ['@']) (.inl hplain) fun _ => trivial
    rwa [List.append_nil] at hquiet
  · exact lastText_dotted hne (fun part hpart => hparts _ (mem_dotted hpart)) (some ['@'])

theorem Annotation.passes (h : Annotation ls) (hls : ∀ l ∈ ls, l.WellFormed) : Passes ls := by
  cases h with
  | @marker parts hlast => exact passes_at hlast fun l hl => hls l (List.mem_cons_of_mem _ hl)
  | @call parts arguments hlast harguments =>
      have hname : Passes (.sign '@' :: dotted parts) :=
        passes_at hlast fun l hl => hls l (List.mem_cons_of_mem _ (List.mem_append_left _ hl))
      obtain ⟨hdepth, hquiet⟩ := harguments.quiet (some ['(']) nofun
      have hbracket : Passes (.sign '(' :: (arguments ++ [.sign ')'])) := by
        have hclose := Passes.sign (c := ')') (by decide)
        refine ⟨?_, fun previous => quiet_cons (by decide) ?_, fun previous _ => ?_⟩
        · change depthAfter 0 (arguments ++ [.sign ')']) = 0
          rw [depthAfter_append, hdepth, hclose.depth]
        · change Quiet _ (lexemeTokens 0 (arguments ++ [.sign ')']))
          rw [lexemeTokens_append, hdepth]
          exact hquiet.append (hclose.quiet _)
        · change lastText (some ['(']) (lexemeTokens 0 (arguments ++ [.sign ')'])) ≠ _
          rw [lexemeTokens_append, hdepth, lastText_append]
          exact fun h => by cases h
      exact hname.append hbracket

/-- **What stands in front of a type announces nothing.** -/
theorem Item.passes (h : Item ls) (hls : ∀ l ∈ ls, l.WellFormed) : Passes ls := by
  have hsemicolon : (Lexeme.sign ';').WellFormed := ⟨by decide, by decide, by decide⟩
  have hdot : (Lexeme.sign '.').WellFormed := ⟨by decide, by decide, by decide⟩
  cases h with
  | @importing parts hparts static all =>
      have hstatic : Passes (if static then [.name "static".toList] else []) := by
        cases static with
        | true => exact .word (by decide) (by decide)
        | false => exact .nil
      have hname : Passes (dotted parts ++
          ((if all then [.sign '.', .sign '*'] else []) ++ [.sign ';'])) := by
        cases all with
        | true =>
            have htail : Passes [.sign '.', .sign '*', .sign ';'] :=
              ⟨rfl, fun _ => quiet_cons (by decide) (quiet_cons (by decide)
                (quiet_cons (by decide) trivial)), fun _ _ h => by cases h⟩
            exact .dotted_sign parts hdot htail fun _ h => by cases h
        | false => exact .dotted_sign parts hsemicolon (.sign (by decide)) fun _ h => by cases h
      exact (Passes.word (t := "import".toList) (by decide) (by decide)).append
        (hstatic.append hname)
  | @modifier word h =>
      have hmodifiers : ∀ word ∈ modifiers, isIdentifier word = true ∧ word ∉ announcing := by
        decide
      exact .word (hmodifiers word h).1 (hmodifiers word h).2
  | nonSealed =>
      exact (Passes.word (t := "non".toList) (by decide) (by decide)).append
        ((Passes.sign (by decide)).append (Passes.word (by decide) (by decide)))
  | annotation h => exact h.passes hls

/-! ### What is found -/

theorem qualifiedName_dotted {parts : List Text} (hne : parts ≠ [])
    (hparts : ∀ part ∈ parts, isIdentifier part = true) (found : List Text) (more : List Token) :
    qualifiedName found (lexemeTokens 0 (dotted parts) ++ ⟨[';'], 0⟩ :: more) = found ++ parts := by
  fun_induction dotted parts generalizing found with
  | case1 => exact absurd rfl hne
  | case2 part =>
      have hpart := hparts part List.mem_cons_self
      rw [lexemeTokens, Lexeme.tokens_name hpart]
      change qualifiedName found (⟨part, 0⟩ :: ⟨[';'], 0⟩ :: more) = _
      rw [qualifiedName, if_neg (by rw [hpart]; exact Bool.false_ne_true)]
      rfl
  | case3 part parts hmore ih =>
      rw [List.forall_mem_cons] at hparts
      have hrest := ih hmore hparts.2 (found ++ [part])
      rw [List.append_assoc, List.singleton_append] at hrest
      rw [lexemeTokens, Lexeme.tokens_name hparts.1, ← hrest]
      change qualifiedName found (⟨part, 0⟩ :: ⟨['.'], 0⟩ ::
        (lexemeTokens 0 (dotted parts) ++ ⟨[';'], 0⟩ :: more)) = _
      rw [qualifiedName, if_neg (by rw [hparts.1]; exact Bool.false_ne_true)]
      rfl

/-- The package of a heading is found. -/
theorem PackageClause.declaredIn_append (h : PackageClause ls package)
    (hls : ∀ l ∈ ls, l.WellFormed) (more : List Token) :
    depthAfter 0 ls = 0 ∧ ∃ previous, previous ≠ some ['.'] ∧
      declaredIn none [] (lexemeTokens 0 ls ++ more) = declaredIn previous package more := by
  cases h with
  | absent => exact ⟨rfl, none, nofun, rfl⟩
  | @declared annotations package hannotations hne hpackage =>
      rw [List.forall_mem_append] at hls
      have hpasses : Passes annotations.flatten := Passes.flatten fun ls hls' =>
        (hannotations ls hls').passes fun l hl => hls.1 l (List.mem_flatten_of_mem hls' hl)
      have hname : Passes (dotted package ++ [.sign ';']) :=
        .dotted_sign package ⟨by decide, by decide, by decide⟩ (.sign (by decide)) fun _ h => by
          cases h
      have hparts : ∀ part ∈ package, isIdentifier part = true := fun part hpart =>
        isIdentifier_iff.mpr (hpackage part hpart)
      refine ⟨?_, _, hname.last (some "package".toList) (by decide), ?_⟩
      · rw [depthAfter_append, hpasses.depth]
        exact hname.depth
      · have hfound : qualifiedName [] (lexemeTokens 0 (dotted package ++ [.sign ';']) ++ more) =
            package := by
          rw [lexemeTokens_append, depthAfter_dotted, List.append_assoc]
          exact qualifiedName_dotted hne hparts [] more
        rw [lexemeTokens_append, hpasses.depth, List.append_assoc,
          declaredIn_quiet (hpasses.quiet _), lexemeTokens, Lexeme.tokens_name (by decide)]
        change declaredIn _ [] (⟨"package".toList, 0⟩ ::
          (lexemeTokens 0 (dotted package ++ [.sign ';']) ++ more)) = _
        rw [declaredIn, if_neg (not_not_intro rfl), if_pos (by decide), hfound,
          declaredIn_quiet (hname.quiet _)]

/-- The type behind a keyword is found. -/
theorem TypeKeyword.declaredIn_append (h : TypeKeyword ls) {type : Text}
    (htype : IsSimpleName type) (hreserved : type ∉ reserved) (hprevious : previous ≠ some ['.'])
    (package : List Text) (more : List Token) :
    declaredIn previous package (lexemeTokens 0 (ls ++ [.name type]) ++ more) =
      ⟨package, some type⟩ := by
  have htype : isIdentifier type = true := isIdentifier_iff.mpr htype
  -- whatever keyword it is, the identifier behind it is taken
  have hkeyword {word : Text} (hword : word ∈ typeKeywords) {previous : Option Text}
      (hprevious : previous ≠ some ['.']) :
      declaredIn previous package (⟨word, 0⟩ :: ⟨type, 0⟩ :: more) = ⟨package, some type⟩ := by
    have hpackage : ¬(package.isEmpty && word == "package".toList) = true := by
      rw [Bool.and_eq_true_iff, beq_iff_eq]
      exact fun h => (isIdentifier_of_mem_typeKeywords hword).2 h.2
    have hafter : typeAfter previous (⟨type, 0⟩ :: more) = some type := by
      rw [typeAfter, if_neg (by simpa using hprevious)]
      simp [htype, hreserved]
    rw [declaredIn, if_neg (not_not_intro rfl), if_neg hpackage,
      if_pos (List.contains_iff_mem.mpr hword), hafter]
  cases h with
  | @word word hword =>
      rw [List.singleton_append, lexemeTokens, lexemeTokens,
        Lexeme.tokens_name (isIdentifier_of_mem_typeKeywords hword).1]
      change declaredIn previous package
        (⟨word, 0⟩ :: ((Lexeme.name type).tokens 0 ++ [] ++ more)) = _
      rw [Lexeme.tokens_name htype]
      exact hkeyword hword hprevious
  | annotationType =>
      have hat := declaredIn_quiet ((Passes.sign (c := '@') (by decide)).quiet previous) package
        ((Lexeme.name "interface".toList).tokens 0 ++ ((Lexeme.name type).tokens 0 ++ more))
      rw [Lexeme.tokens_name (by decide), Lexeme.tokens_name htype] at hat
      change declaredIn previous package (⟨['@'], 0⟩ ::
        ((Lexeme.name "interface".toList).tokens 0 ++
          ((Lexeme.name type).tokens 0 ++ []) ++ more)) = _
      rw [Lexeme.tokens_name (by decide), Lexeme.tokens_name htype]
      exact hat.trans (hkeyword (by decide) fun h => by cases h)

/-- **The package and the type of a heading are found**, whatever stands in comments, literals and
braces and behind the name of the type. -/
theorem declaredNames_of_spells {type t rest : Text} (hheading : Heading ls package type)
    (hspells : Spells rest ls t) : declaredNames t = ⟨package, some type⟩ := by
  cases hheading with
  | @mk clause keyword items package type hclause hitems hkeyword htype hreserved =>
      have hwf := hspells.wellFormed
      rw [List.forall_mem_append, List.forall_mem_append] at hwf
      obtain ⟨hclausewf, hitemswf, -⟩ := hwf
      have hpasses : Passes items.flatten := Passes.flatten fun ls hls =>
        (hitems ls hls).passes fun l hl => hitemswf l (List.mem_flatten_of_mem hls hl)
      rw [declaredNames, tokens, hspells.tokensAt_eq, lexemeTokens_append, List.append_assoc]
      obtain ⟨hdepth, previous, hprevious, hread⟩ := hclause.declaredIn_append hclausewf
        (lexemeTokens (depthAfter 0 clause) (items.flatten ++ (keyword ++ [.name type])) ++
          tokensAt (depthAfter 0 (clause ++ (items.flatten ++ (keyword ++ [.name type])))) rest)
      rw [hread, hdepth, lexemeTokens_append, List.append_assoc, declaredIn_quiet (hpasses.quiet _),
        hpasses.depth]
      exact hkeyword.declaredIn_append htype hreserved (hpasses.last _ hprevious) package _

/-! ### Samples -/

/-- An annotation with a literal and a class in braces. -/
def sampleCall : List Lexeme :=
  .sign '@' :: (dotted ["Größe".toList] ++ .sign '(' :: ((.quoted '"' "class A".toList ::
    .sign ',' :: .opening :: ([.name "B".toList, .sign '.', .name "class".toList] ++ [.closing])) ++
      [.sign ')']))

theorem annotation_sampleCall : Annotation sampleCall :=
  .call ⟨_, rfl, by decide +kernel⟩ (.quoted (.sign (.braces
    (.other nofun nofun (.other nofun nofun (.other nofun nofun .nil))) .nil)))

def sampleLexemes : List Lexeme :=
  ([sampleCall].flatten ++ .name "package".toList ::
    (dotted ["p".toList, "q".toList] ++ [.sign ';'])) ++
  ([[.name "public".toList]].flatten ++
    ([.sign '@', .name "interface".toList] ++ [.name "T".toList]))

theorem heading_sampleLexemes :
    Heading sampleLexemes ["p".toList, "q".toList] "T".toList := by
  refine .mk (.declared ?_ (by decide) ?_) ?_ .annotationType ?_ (by decide)
  · exact List.forall_mem_singleton.mpr annotation_sampleCall
  · simp only [← isIdentifier_iff]
    decide
  · exact List.forall_mem_singleton.mpr (.modifier (by decide))
  · exact isIdentifier_iff.mp (by decide)

/-- A heading whose comments, literals and braces hold keywords, lexeme by lexeme. -/
def sampleText : Text :=
  (["@", "Größe", "(", "\"class A\"", ",", "\x7b", "B", ".", "class", "\x7d", ")", "package", " ",
    "p", ".", "q", ";", "/* enum C */", "public", " ", "@", "interface", " ", "T",
    "\x7b class"].map String.toList).flatten

theorem spells_sampleText : Spells "\x7b class".toList sampleLexemes sampleText := by
  have hsign {c : Char} (hc : Text.isBlank c = false ∧ isIdentifierStart c = false ∧
      c ∉ "\"'\x7b\x7d".toList) : (Lexeme.sign c).WellFormed := hc
  have hquoted : QuotedBody '"' "class A".toList :=
    quotedBody_of_plain (List.all_iff_forall_prop.mp (by decide))
  have hcomment : Filler "/* enum C */".toList := .block (t := " enum C ".toList) (by decide)
  have hblank : Filler [' '] := .blank (by decide)
  refine .lexeme (hsign (by decide)) (by decide) ?_
  refine .lexeme (l := .name "Größe".toList) ⟨'G', _, rfl, by decide,
    List.all_eq_true.mp (by decide)⟩ (by decide) ?_
  refine .lexeme (hsign (by decide)) (by decide) ?_
  refine .lexeme (l := .quoted '"' "class A".toList) ⟨by decide, hquoted⟩ (by decide) ?_
  refine .lexeme (hsign (by decide)) (by decide) ?_
  refine .lexeme (l := .opening) trivial (by decide) ?_
  refine .lexeme (l := .name "B".toList) (Lexeme.wellFormed_name (by decide)) (by decide) ?_
  refine .lexeme (hsign (by decide)) (by decide) ?_
  refine .lexeme (l := .name "class".toList) (Lexeme.wellFormed_name (by decide)) (by decide) ?_
  refine .lexeme (l := .closing) trivial (by decide) ?_
  refine .lexeme (hsign (by decide)) (by decide) ?_
  refine .lexeme (l := .name "package".toList) (Lexeme.wellFormed_name (by decide)) (by decide) ?_
  refine .filler hblank ?_
  refine .lexeme (l := .name "p".toList) (Lexeme.wellFormed_name (by decide)) (by decide) ?_
  refine .lexeme (hsign (by decide)) (by decide) ?_
  refine .lexeme (l := .name "q".toList) (Lexeme.wellFormed_name (by decide)) (by decide) ?_
  refine .lexeme (hsign (by decide)) (by decide) ?_
  refine .filler hcomment ?_
  refine .lexeme (l := .name "public".toList) (Lexeme.wellFormed_name (by decide)) (by decide) ?_
  refine .filler hblank ?_
  refine .lexeme (hsign (by decide)) (by decide) ?_
  refine .lexeme (l := .name "interface".toList) (Lexeme.wellFormed_name (by decide)) (by decide) ?_
  refine .filler hblank ?_
  refine .lexeme (l := .name "T".toList) (Lexeme.wellFormed_name (by decide)) (by decide) ?_
  exact .done

theorem declaredNames_of_spells_sample :
    declaredNames sampleText = ⟨["p".toList, "q".toList], some "T".toList⟩ :=
  declaredNames_of_spells heading_sampleLexemes spells_sampleText

theorem declaredNames_differs :
    declaredNames "@Éclass package p; class T \x7b\x7d".toList =
      ⟨[], some "package".toList⟩ := by
  decide +kernel

end Unjar.JavaSource
