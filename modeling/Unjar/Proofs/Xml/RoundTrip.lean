import Unjar.Proofs.Utf8
import Unjar.Proofs.Xml.Spelling

/-!
Trees read back from what is written.

A tree that is written is read back: the tokens of the root are all passed over in looking for its
end, and building puts every child and every text where it was.  Comments are gone, so that the text
behind one joins the text in front of it.  What is read back has the line ends of documents, and
nothing behind its root.

Main definitions:

* `Unjar.Xml.PassedOver` — tokens within the root;
* `Unjar.Xml.readBack`, `Unjar.Xml.readBackAll` — **an element, and children, as they are read back**;
* `Unjar.Xml.buildTokens?` — the tree of tokens.

Main results:

* `Unjar.Xml.cutAtRoot?_nodeTokens` — where a tree ends;
* `Unjar.Xml.buildTokens?_nodeTokens`, `Unjar.Xml.buildTokens?_root` — an element within another, and
  the root;
* `Unjar.Xml.readText?_writeNode`, `Unjar.Xml.readBytes?_writeNode` — **a tree that is written** is
  read back, from its text and from its bytes;
* `Unjar.Xml.readText?_toText` — reading undoes writing.
-/

set_option autoImplicit false

namespace Unjar.Xml

/-! ### Where a tree ends -/

/-- **Tokens within the root**: behind them as many elements are open as before. -/
def PassedOver (tokens : List Token) : Prop :=
  ∀ depth more, cutAtRoot? (depth + 1) (tokens ++ more) =
    (cutAtRoot? (depth + 1) more).map fun (root, others) => (tokens ++ root, others)

section

variable {table : Prefixes} {declared : WrittenAttributes} {node : XmlNode}
  {children : List XmlNode} {tokens : List Token} {name : XmlName} {attributes : XmlAttributes}
  {text tail : Text}

theorem PassedOver.nil : PassedOver [] := by
  intro depth more
  rw [List.nil_append]
  cases cutAtRoot? (depth + 1) more <;> rfl

theorem PassedOver.append {tokens' : List Token} (h : PassedOver tokens) (h' : PassedOver tokens') :
    PassedOver (tokens ++ tokens') := by
  intro depth more
  rw [List.append_assoc, h, h']
  cases cutAtRoot? (depth + 1) more <;> simp

theorem passedOver_textTokens (t : Text) : PassedOver (textTokens t) := by
  unfold textTokens
  split
  · exact .nil
  · exact fun depth more => rfl

theorem PassedOver.element (h : PassedOver tokens) (tag : Text) (attributes : List RawAttribute) :
    PassedOver (.startTag tag attributes :: (tokens ++ [.endTag tag])) := by
  intro depth more
  rw [List.cons_append, cutAtRoot?, List.append_assoc, h]
  cases hmore : cutAtRoot? (depth + 1) more <;> simp [cutAtRoot?, hmore]

theorem passedOver_childrenTokens (h : ∀ child ∈ children, PassedOver (nodeTokens table [] child)) :
    PassedOver (childrenTokens table children) := by
  induction children with
  | nil => exact .nil
  | cons child children ih =>
      rw [List.forall_mem_cons] at h
      rw [childrenTokens]
      exact (h.1.append (passedOver_textTokens child.tail)).append (ih h.2)

theorem passedOver_nodeTokens (h : Writable table node) :
    PassedOver (nodeTokens table declared node) := by
  induction h generalizing declared with
  | comment => exact .nil
  | element hname hattributes hchildren ih =>
      rw [nodeTokens]
      refine PassedOver.element (.append (passedOver_textTokens _) ?_) _ _
      exact passedOver_childrenTokens fun child hchild => ih child hchild

/-- **A tree ends** with its last token. -/
theorem cutAtRoot?_nodeTokens (hchildren : ∀ child ∈ children, Writable table child)
    (more : List Token) :
    cutAtRoot? 0 (nodeTokens table declared (.element name attributes text children tail) ++ more) =
      some (nodeTokens table declared (.element name attributes text children tail), more) := by
  have hinner : PassedOver (textTokens text ++ childrenTokens table children) :=
    .append (passedOver_textTokens text) <| passedOver_childrenTokens fun child hchild =>
      passedOver_nodeTokens (hchildren child hchild)
  rw [nodeTokens, List.cons_append, cutAtRoot?, List.append_assoc, hinner]
  simp [cutAtRoot?]

end

/-! ### What is read back -/

mutual

/-- **An element as it is read back** where elements without a prefix are in the outer namespace:
there are no comments in it, and nothing stands behind it. -/
def readBack (outer : Option Text) : XmlNode → XmlNode
  | .comment content _ => .comment content []
  | .element name attributes text children _ =>
    let inner := readBackAll outer children
    .element (name.inside outer) attributes (text ++ inner.1) inner.2 []

/-- **Children as they are read back**: the text in front of the first element, and the elements,
each with the text up to the next. -/
def readBackAll (outer : Option Text) : List XmlNode → Text × List XmlNode
  | [] => ([], [])
  | node :: more =>
    let inner := readBackAll outer more
    let behind := node.tail ++ inner.1
    if node.name?.isNone then (behind, inner.2)
    else ([], (readBack outer node).withTail behind :: inner.2)

end

section

variable {node : XmlNode} {children : List XmlNode}

/-- Children without comments, each of which comes back as it is. -/
theorem readBackAll_none (helements : ∀ child ∈ children, child.WellFormed)
    (h : ∀ child ∈ children, readBack none child = child.withTail []) :
    readBackAll none children = ([], children) := by
  induction children with
  | nil => rfl
  | cons child children ih =>
      rw [List.forall_mem_cons] at helements h
      rw [readBackAll, ih helements.2 h.2, h.1]
      cases helements.1 with
      | element => simp [XmlNode.name?, XmlNode.withTail, XmlNode.tail]

/-- **The trees of documents come back as they are.** -/
theorem readBack_none (h : node.WellFormed) : readBack none node = node.withTail [] := by
  induction h with
  | element _ _ _ _ hchildren ih =>
      rw [readBack, readBackAll_none hchildren ih, XmlName.inside_none, List.append_nil]
      rfl

end

/-! ### Building -/

/-- The tree of tokens, given the elements that are open. -/
def buildTokens? (d : Doctype) (stack : List OpenElement) (tokens : List Token) : Option XmlNode :=
  (d.entities.events? tokens).bind (build? d stack)

section

variable {d : Doctype} {o p : OpenElement} {s outer : List OpenElement}

theorem textPiece_cases (c : Char) : textPiece c = .referred c ∨ textPiece c = .plain c := by
  unfold textPiece
  split
  · exact .inl rfl
  · exact .inr rfl

/-- A text comes back from its pieces. -/
theorem piecesWithin?_textPiece (e : Entities) (depth : Nat) (t : Text) :
    e.piecesWithin? depth (t.map textPiece) = some (if t = [] then [] else [.text t]) := by
  induction t with
  | nil => simp [Entities.piecesWithin?]
  | cons c t ih =>
      have hcons : consCharacter c (if t = [] then [] else [.text t]) = [.text (c :: t)] := by
        split
        · next ht => rw [ht, consCharacter]; simp
        · rfl
      rw [List.map_cons]
      rcases textPiece_cases c with hpiece | hpiece
      · rw [hpiece, Entities.piecesWithin?, ih]
        simp [hcons]
      · rw [hpiece, Entities.piecesWithin?, ih]
        simp [hcons]

theorem addText_nil (o : OpenElement) : o.addText [] = o := by
  obtain ⟨tag, text, children⟩ := o
  cases children with
  | nil => simp [OpenElement.addText]
  | cons last others => cases last <;> simp [OpenElement.addText, XmlNode.withTail, XmlNode.tail]

@[simp] theorem tag_addText (t : Text) : (o.addText t).tag = o.tag := by
  unfold OpenElement.addText
  split <;> rfl

theorem addText_addText (a b : Text) : (o.addText a).addText b = o.addText (a ++ b) := by
  obtain ⟨tag, text, children⟩ := o
  cases children with
  | nil => simp [OpenElement.addText]
  | cons last others => cases last <;> simp [OpenElement.addText, XmlNode.withTail, XmlNode.tail]

/-- More children, with the text in front of them. -/
def OpenElement.addAll (o : OpenElement) (inner : Text × List XmlNode) : OpenElement :=
  { o.addText inner.1 with children := inner.2.reverse ++ (o.addText inner.1).children }

@[simp] theorem tag_addAll (inner : Text × List XmlNode) : (o.addAll inner).tag = o.tag := by
  unfold OpenElement.addAll OpenElement.addText
  split <;> rfl

theorem addAll_addText (tail : Text) (inner : Text × List XmlNode) :
    (o.addText tail).addAll inner = o.addAll (tail ++ inner.1, inner.2) := by
  rw [OpenElement.addAll, OpenElement.addAll, addText_addText]

/-- A child is behind what is added before it and takes the text behind itself along. -/
theorem addAll_addChild (child : XmlNode) (tail : Text) (inner : Text × List XmlNode) :
    ((o.addChild (child.withTail [])).addText tail).addAll inner =
      o.addAll ([], child.withTail (tail ++ inner.1) :: inner.2) := by
  rw [addAll_addText, OpenElement.addAll, OpenElement.addAll, addText_nil]
  cases child <;> simp [OpenElement.addText, OpenElement.addChild, XmlNode.withTail, XmlNode.tail]

/-- An element is closed around its text and its children. -/
theorem close_addAll (tag : Tag) (text : Text) (inner : Text × List XmlNode) :
    (((OpenElement.start tag).addText text).addAll inner).close =
      .element tag.name tag.attributes (text ++ inner.1) inner.2 [] := by
  simp [OpenElement.close, OpenElement.start, OpenElement.addAll, OpenElement.addText]

theorem buildTokens?_textTokens (t : Text) (more : List Token) :
    buildTokens? d (o :: outer) (textTokens t ++ more) =
      buildTokens? d (o.addText t :: outer) more := by
  unfold textTokens
  split
  · next ht =>
    rw [ht, addText_nil]
    rfl
  · next ht =>
    rw [buildTokens?, buildTokens?, Entities.events?, Entities.events?, List.singleton_append,
      Entities.eventsWithin?, piecesWithin?_textPiece, if_neg ht]
    cases d.entities.eventsWithin? (d.entities.texts.length + 1) more <;> rfl

theorem buildTokens?_startTag {name : Text} {attributes : List RawAttribute} {tag : Tag}
    {stack : List OpenElement} (h : Tag.resolve? d (scopeOf stack) name attributes = some tag)
    (more : List Token) :
    buildTokens? d stack (.startTag name attributes :: more) =
      buildTokens? d (.start tag :: stack) more := by
  rw [buildTokens?, buildTokens?, Entities.events?, Entities.events?, Entities.eventsWithin?]
  cases d.entities.eventsWithin? (d.entities.texts.length + 1) more with
  | none => rfl
  | some events =>
      change build? d stack (.startTag name attributes :: events) = _
      rw [build?, h]
      rfl

/-- There is no tree with a tag that is none. -/
theorem buildTokens?_startTag_eq_none {name : Text} {attributes : List RawAttribute}
    {stack : List OpenElement} (h : Tag.resolve? d (scopeOf stack) name attributes = none)
    (more : List Token) : buildTokens? d stack (.startTag name attributes :: more) = none := by
  rw [buildTokens?, Entities.events?, Entities.eventsWithin?]
  cases d.entities.eventsWithin? (d.entities.texts.length + 1) more with
  | none => rfl
  | some events =>
      change build? d stack (.startTag name attributes :: events) = _
      rw [build?, h]
      rfl

theorem buildTokens?_endTag (more : List Token) :
    buildTokens? d (o :: p :: s) (.endTag o.tag.written :: more) =
      buildTokens? d (p.addChild o.close :: s) more := by
  rw [buildTokens?, buildTokens?, Entities.events?, Entities.events?, Entities.eventsWithin?]
  cases d.entities.eventsWithin? (d.entities.texts.length + 1) more with
  | none => rfl
  | some events =>
      change build? d (o :: p :: s) (.endTag o.tag.written :: events) = _
      simp [build?]

theorem buildTokens?_end : buildTokens? d [o] [.endTag o.tag.written] = some o.close := by
  rw [buildTokens?, Entities.events?, Entities.eventsWithin?, Entities.eventsWithin?]
  simp [build?]

end

section

variable {table : Prefixes} {standsAlone : Bool} {node : XmlNode} {children : List XmlNode}

/-! ### Start tags -/

section

variable {attributes : XmlAttributes} {declared : WrittenAttributes} {outer : Option Text}
  {scope : Scope} (htable : table.IsSound) (hattributes : IsAttributes attributes)
  (hspelt : ∀ a ∈ attributes, table.Spells a.1)

include htable hattributes hspelt

theorem declared?_written :
    ∀ a ∈ writtenAttributes table attributes, Scope.declared? a.1 = none := by
  intro a ha
  obtain ⟨given, hgiven, rfl⟩ := List.mem_map.mp ha
  exact htable.declared?_qualified (hspelt given hgiven) (hattributes.names given hgiven)

theorem nodup_written : ((writtenAttributes table attributes).map Prod.fst).Nodup := by
  have hmap : (writtenAttributes table attributes).map Prod.fst =
      (attributes.map Prod.fst).map table.qualified := by
    rw [writtenAttributes, List.map_map, List.map_map]
    rfl
  rw [hmap]
  refine hattributes.distinct.map_on fun n hn n' hn' heq => ?_
  obtain ⟨a, ha, rfl⟩ := List.mem_map.mp hn
  obtain ⟨a', ha', rfl⟩ := List.mem_map.mp hn'
  exact htable.qualified_injective (hspelt a ha) (hspelt a' ha') heq

/-- Attributes come back, and declarations in front of them are left out. -/
theorem resolveAttributes?_written (hdeclared : ∀ a ∈ declared, Scope.declared? a.1 ≠ none)
    (hscope : scope.Carries table outer) :
    Tag.resolveAttributes? scope (declared ++ writtenAttributes table attributes) =
      some attributes := by
  have hplain := declared?_written htable hattributes hspelt
  have hfilter : (declared ++ writtenAttributes table attributes).filter
      (fun a => (Scope.declared? a.1).isNone) = writtenAttributes table attributes := by
    rw [List.filter_append, List.filter_eq_nil_iff.mpr, List.filter_eq_self.mpr, List.nil_append]
    · exact fun a ha => by simp [hplain a ha]
    · exact fun a ha => by simpa using hdeclared a ha
  have hall := mapM_eq_some_map (l := attributes) (g := id)
    (f := fun a => (scope.attributeName? (table.qualified a.1)).bind fun name => some (name, a.2))
    fun a ha => by simp [hscope.attributeName? htable (hspelt a ha)]
  rw [List.map_id] at hall
  change List.mapM (fun a : Text × Text => (scope.attributeName? a.1).bind fun name =>
    some (name, a.2)) (List.filter (fun a => (Scope.declared? a.1).isNone) _) = _
  rw [hfilter, writtenAttributes, List.mapM_map]
  exact hall

/-- **The start tag of an element** that is spelt, with declarations in front of its attributes. -/
theorem resolve?_spelt {name : XmlName} (hname : table.Spells name) {around : Scope}
    (hnodup : (declared.map Prod.fst).Nodup)
    (hdeclared : ∀ a ∈ declared, Scope.declared? a.1 ≠ none)
    (hbind : around.bindAll? declared = some scope) (hscope : scope.Carries table outer) :
    Tag.resolve? (.empty standsAlone) around (table.qualified name)
        (rawAttributes (declared ++ writtenAttributes table attributes)) =
      some ⟨table.qualified name, name.inside outer, attributes, scope⟩ := by
  have hplain := declared?_written htable hattributes hspelt
  refine resolve?_written ?_ ?_ (resolveAttributes?_written htable hattributes hspelt hdeclared
    hscope) hattributes.distinct (hscope.elementName? htable hname)
  · rw [List.map_append, List.nodup_append]
    refine ⟨hnodup, nodup_written htable hattributes hspelt, ?_⟩
    rintro n hn _ hn' rfl
    obtain ⟨a, ha, rfl⟩ := List.mem_map.mp hn
    obtain ⟨a', ha', heq⟩ := List.mem_map.mp hn'
    exact hdeclared a ha (heq ▸ hplain a' ha')
  · rw [Scope.bindAll?_append hbind]
    exact Scope.bindAll?_of_declared?_eq_none hplain

end

/-! ### Elements -/

/-- The children of an element, if each element among them is read back. -/
theorem buildTokens?_childrenTokens {d : Doctype} {o : OpenElement} {around : List OpenElement}
    (outer : Option Text)
    (h : ∀ child ∈ children, child.name? ≠ none → ∀ o' : OpenElement, o'.tag = o.tag → ∀ more,
      buildTokens? d (o' :: around) (nodeTokens table [] child ++ more) =
        buildTokens? d (o'.addChild (readBack outer child) :: around) more) (more : List Token) :
    buildTokens? d (o :: around) (childrenTokens table children ++ more) =
      buildTokens? d (o.addAll (readBackAll outer children) :: around) more := by
  induction children generalizing o with
  | nil =>
      rw [childrenTokens, readBackAll, OpenElement.addAll, addText_nil]
      rfl
  | cons child children ih =>
      rw [List.forall_mem_cons] at h
      rw [childrenTokens, List.append_assoc, List.append_assoc, readBackAll]
      cases child with
      | comment content tail =>
          -- the text behind a comment is added where the comment is
          have hinner := ih (o := o.addText tail) fun child hchild hname o' ho' =>
            h.2 child hchild hname o' (ho'.trans (tag_addText tail))
          rw [nodeTokens, List.nil_append, buildTokens?_textTokens]
          exact hinner.trans (by rw [addAll_addText]; rfl)
      | element name attributes text inner tail =>
          have hchild := h.1 (by simp [XmlNode.name?]) o rfl
          have hback : (readBack outer (.element name attributes text inner tail)).withTail [] =
              readBack outer (.element name attributes text inner tail) := rfl
          rw [hchild, buildTokens?_textTokens, ih]
          · rw [← hback, addAll_addChild]
            rfl
          · exact fun child hchild hname o' ho' =>
              h.2 child hchild hname o' (ho'.trans (tag_addText _))

/-- **An element within another** is read back as its child. -/
theorem buildTokens?_nodeTokens (htable : table.IsSound) (h : Spelt table node)
    (hnode : node.name? ≠ none) {o : OpenElement} {around : List OpenElement} {outer : Option Text}
    (ho : o.tag.scope.Carries table outer) (more : List Token) :
    buildTokens? (.empty standsAlone) (o :: around) (nodeTokens table [] node ++ more) =
      buildTokens? (.empty standsAlone) (o.addChild (readBack outer node) :: around) more := by
  induction h generalizing o around more with
  | comment => exact absurd rfl hnode
  | @element name attributes text tail children hname hattributes hspelt _ _ _ ih =>
      have htag : Tag.resolve? (.empty standsAlone) (scopeOf (o :: around)) (table.qualified name)
          (rawAttributes ([] ++ writtenAttributes table attributes)) =
          some ⟨table.qualified name, name.inside outer, attributes, o.tag.scope⟩ :=
        resolve?_spelt htable hattributes hspelt hname List.nodup_nil
          (fun _ ha => absurd ha List.not_mem_nil) rfl ho
      rw [nodeTokens, List.cons_append, buildTokens?_startTag htag, List.append_assoc,
        List.append_assoc, buildTokens?_textTokens, buildTokens?_childrenTokens outer]
      · have hend := buildTokens?_endTag (d := .empty standsAlone) (o := ((OpenElement.start
          ⟨table.qualified name, name.inside outer, attributes, o.tag.scope⟩).addText text).addAll
            (readBackAll outer children)) (p := o) (s := around) more
        rw [tag_addAll, tag_addText, close_addAll] at hend
        exact hend
      · exact fun child hchild hname o' ho' more => ih child hchild hname (ho' ▸ ho) more

/-- **The root** is read back under the name and with the attributes of its tag. -/
theorem buildTokens?_root (htable : table.IsSound)
    (hchildren : ∀ child ∈ children, Spelt table child) {written : Text}
    {attributes : List RawAttribute} {tag : Tag} {outer : Option Text}
    (htag : Tag.resolve? (.empty standsAlone) .outermost written attributes = some tag)
    (hwritten : tag.written = written) (hscope : tag.scope.Carries table outer) (text : Text) :
    buildTokens? (.empty standsAlone) [] (.startTag written attributes ::
        (textTokens text ++ childrenTokens table children ++ [.endTag written])) =
      some (.element tag.name tag.attributes (text ++ (readBackAll outer children).1)
        (readBackAll outer children).2 []) := by
  have hend := buildTokens?_end (d := .empty standsAlone)
    (o := ((OpenElement.start tag).addText text).addAll (readBackAll outer children))
  rw [tag_addAll, tag_addText, close_addAll] at hend
  rw [buildTokens?_startTag htag, List.append_assoc, buildTokens?_textTokens,
    buildTokens?_childrenTokens outer, ← hwritten]
  · exact hend
  · exact fun child hchild hname o' ho' more =>
      buildTokens?_nodeTokens htable (hchildren child hchild) hname (ho' ▸ hscope) more

/-- The root is read back, if its tag carries declarations. -/
theorem buildTokens?_root_nodeTokens (standsAlone : Bool) (htable : table.IsSound)
    {outer : Option Text} {declared : WrittenAttributes} (hdeclared : Declares table outer declared)
    (h : Spelt table node) (hnode : node.name? ≠ none) :
    buildTokens? (.empty standsAlone) [] (nodeTokens table declared node) =
      some (readBack outer node) := by
  obtain ⟨scope, hbind, hscope⟩ := hdeclared.scope
  cases h with
  | comment => exact absurd rfl hnode
  | @element name attributes text tail children hname hattributes hspelt _ _ hchildren =>
      have htag : Tag.resolve? (.empty standsAlone) .outermost (table.qualified name)
          (rawAttributes (declared ++ writtenAttributes table attributes)) =
          some ⟨table.qualified name, name.inside outer, attributes, scope⟩ :=
        resolve?_spelt htable hattributes hspelt hname hdeclared.distinct hdeclared.declares hbind
          hscope
      exact buildTokens?_root htable hchildren htag rfl hscope text

/-! ### Documents -/

section

variable {c : Char}

theorem ne_of_isNameStart (hc : isNameStart c = true) {sign : Char}
    (hsign : isNameStart sign = false) : sign ≠ c := by
  rintro rfl
  rw [hc] at hsign
  cases hsign

/-- An element is not taken for a declaration. -/
theorem dropPrefix?_of_ne {sign : Char} (hne : sign ≠ c) (start r : Text) :
    dropPrefix? ('<' :: sign :: start) ('<' :: c :: r) = none := by
  simp [dropPrefix?, List.isPrefixOf, hne]

theorem readHeading?_of_ne (hne : '?' ≠ c) (r : Text) :
    Heading.read? ('<' :: c :: r) = some (.empty, '<' :: c :: r) := by
  have hahead : Heading.isAhead ('<' :: c :: r) = false := by
    have hopening : dropPrefix? Heading.opening ('<' :: c :: r) = none :=
      dropPrefix?_of_ne hne "xml".toList r
    rw [Heading.isAhead, hopening]
  rw [Heading.read?, hahead]
  rfl

/-- **The bytes of an element** are read as its text. -/
theorem decode?_of_isNameStart (hc : isNameStart c = true) (r : Text) :
    decode? (Utf8.encode ('<' :: c :: r)) = .ok (some ('<' :: c :: r)) := by
  obtain ⟨b, l, hb, hcases⟩ := Utf8.head_utf8EncodeChar c
  have hbytes : Utf8.encode ('<' :: c :: r) = 60 :: b :: (l ++ Utf8.encode r) :=
    congrArg (60 :: · ++ Utf8.encode r) hb
  -- a byte beyond ASCII is neither zero nor a question mark, and no name begins with those
  have hzero : b ≠ 0 := by
    rintro rfl
    rcases hcases with rfl | h
    · exact absurd hc (by decide)
    · exact absurd h (by decide)
  have hquestion : '?' ≠ Char.ofNat b.toNat := by
    rcases hcases with h | h
    · rw [h]
      exact ne_of_isNameStart hc (by decide)
    · intro heq
      have hnumber : (Char.ofNat b.toNat).val.toNat = b.toNat :=
        Utf8.val_ofNat (.inl (Nat.lt_trans b.toNat_lt (by decide)))
      rw [← heq] at hnumber
      exact absurd h (by rw [← hnumber]; decide)
  have hwide : wideForm? (60 :: b :: (l ++ Utf8.encode r)) = none := by
    unfold wideForm?
    split <;> simp_all
  have hdecode := Utf8.decode_encode ('<' :: c :: r)
  have hheading := readHeading?_of_ne hquestion
    ((l ++ Utf8.encode r).map fun b => Char.ofNat b.toNat)
  rw [hbytes] at hdecode ⊢
  rw [decode?, hwide]
  have hdrop : dropMark (60 :: b :: (l ++ Utf8.encode r)) = 60 :: b :: (l ++ Utf8.encode r) := rfl
  have hmap : (60 :: b :: (l ++ Utf8.encode r)).map (fun b => Char.ofNat b.toNat) =
      '<' :: Char.ofNat b.toNat :: (l ++ Utf8.encode r).map fun b => Char.ofNat b.toNat := rfl
  dsimp only
  rw [hdrop, hmap, hheading]
  change decodeAs? "utf-8".toList _ = _
  rw [decodeAs?, if_pos (by decide +kernel)]
  exact congrArg _ hdecode

/-- In front of an element stands nothing but white space that would have to be passed over. -/
theorem readProlog?_of_isNameStart (hc : isNameStart c = true) (standsAlone : Bool) {t r : Text}
    (hs : dropSpaces t = '<' :: c :: r) :
    readProlog? standsAlone t = some (.empty standsAlone, '<' :: c :: r) := by
  have hquestion := ne_of_isNameStart hc (show isNameStart '?' = false by decide)
  have hexclamation := ne_of_isNameStart hc (show isNameStart '!' = false by decide)
  have hafter : afterMiscellany? t = some ('<' :: c :: r) := by
    unfold afterMiscellany?
    split <;> rename_i heq <;> rw [hs] at heq <;> simp_all
  have hdoctype : dropPrefix? doctypeOpening ('<' :: c :: r) = none :=
    dropPrefix?_of_ne hexclamation "DOCTYPE".toList r
  rw [readProlog?, hafter]
  simp only [Option.bind_eq_bind, Option.bind_some, hdoctype, Option.pure_def]

end

/-- What is written of an element begins with its name. -/
theorem writeNode_head {name : XmlName} (hname : isQualifiedName (table.qualified name) = true)
    (declarations : Text) (attributes : XmlAttributes) (text : Text) (children : List XmlNode)
    (tail : Text) :
    ∃ c r, isNameStart c = true ∧
      writeNode table declarations (.element name attributes text children tail) = '<' :: c :: r := by
  obtain ⟨c, hc, hstart⟩ := head?_of_isQualifiedName hname
  obtain ⟨n, hn⟩ := List.head?_eq_some_iff.mp hc
  rw [writeNode, hn]
  split
  · exact ⟨c, _, hstart, rfl⟩
  · exact ⟨c, _, hstart, rfl⟩

/-- **A document** whose tree is written is built from the tokens of the tree. -/
theorem readRoot?_of_writeNode {name : XmlName} {attributes : XmlAttributes} {text tail : Text}
    (h : Writable table (.element name attributes text children tail))
    {declared : WrittenAttributes} (hdeclared : ∀ a ∈ declared, isQualifiedName a.1 = true)
    {t rest after : Text} {heading : Heading} {more : List Token}
    (hheading : Heading.read? t = some (heading, rest))
    (hprolog : readProlog? heading.standsAlone rest = some (.empty heading.standsAlone,
      writeNode table (writeAll declared) (.element name attributes text children tail) ++ after))
    (hafter : tokens? after = some more) (hmore : more.all mayFollow = true) :
    readRoot? t = buildTokens? (.empty heading.standsAlone) []
      (nodeTokens table declared (.element name attributes text children tail)) := by
  have hchildren : ∀ child ∈ children, Writable table child := by
    cases h with
    | element _ _ hchildren => exact hchildren
  have htokens := tokens?_writeNode h hdeclared after
  rw [hafter] at htokens
  rw [readRoot?, hheading]
  change (readProlog? heading.standsAlone rest).bind _ = _
  rw [hprolog]
  change (tokens? _).bind _ = _
  rw [htokens]
  change (cutAtRoot? 0 _).bind _ = _
  rw [cutAtRoot?_nodeTokens hchildren]
  change (if (!more.all mayFollow) = true then none else _) = _
  rw [if_neg (by simp [hmore])]
  rfl

/-- What is written of an element begins with a name, not with a mark. -/
theorem exists_writeNode_of_spelt (htable : table.IsSound) (h : Spelt table node)
    (hnode : node.name? ≠ none) (declarations : Text) :
    ∃ c r, isNameStart c = true ∧ writeNode table declarations node = '<' :: c :: r := by
  cases h.writable htable with
  | comment => exact absurd rfl hnode
  | element hname _ _ => exact writeNode_head hname _ _ _ _ _

section

variable {declared : WrittenAttributes} {outer : Option Text} (htable : table.IsSound)
  (hdeclared : Declares table outer declared) (h : Spelt table node) (hnode : node.name? ≠ none)

include htable hdeclared h hnode

/-- What is written of a tree is read back, with the line ends of documents. -/
theorem readCharacters?_writeNode :
    readCharacters? (writeNode table (writeAll declared) node) =
      some (readBack outer node.unified) := by
  have hqualified : ∀ a ∈ declared, isQualifiedName a.1 = true :=
    fun a ha => (hdeclared.written a ha).1
  have hcontent := h.isContent_writeNode htable hdeclared.written
  have hunified : Text.unifyLineEnds (writeNode table (writeAll declared) node) =
      writeNode table (writeAll declared) node.unified := by
    have hends := h.unifyLineEnds_writeNode htable hqualified []
    rwa [List.append_nil, Text.unifyLineEnds, List.append_nil] at hends
  have hspelt := h.unified
  rw [← XmlNode.name?_unified] at hnode
  rw [readCharacters?, if_pos (isContent_iff_all.mp hcontent), hunified,
    ← buildTokens?_root_nodeTokens false htable hdeclared hspelt hnode]
  cases hfound : node.unified with
  | comment => exact absurd (hfound ▸ rfl) hnode
  | element name attributes text children tail =>
      rw [hfound] at hspelt
      have hwritable := hspelt.writable htable
      have hname : isQualifiedName (table.qualified name) = true := by
        cases hwritable with
        | element hname _ _ => exact hname
      obtain ⟨c, r, hc, hshape⟩ := writeNode_head hname (writeAll declared) attributes text
        children tail
      have hheading := readHeading?_of_ne (ne_of_isNameStart hc (by decide)) r
      have hnothing : tokens? [] = some [] := by rw [tokens?]
      rw [hshape]
      refine readRoot?_of_writeNode hwritable hqualified hheading ?_ hnothing rfl
      rw [List.append_nil, hshape]
      exact readProlog?_of_isNameStart hc _ rfl

/-- **A tree that is written** is read back, with the line ends of documents. -/
theorem readText?_writeNode :
    readText? (writeNode table (writeAll declared) node) = some (readBack outer node.unified) := by
  obtain ⟨c, r, -, hshape⟩ := exists_writeNode_of_spelt htable h hnode (writeAll declared)
  have hmark : dropTextMark (writeNode table (writeAll declared) node) =
      writeNode table (writeAll declared) node := by
    rw [hshape]
    rfl
  rw [readText?, hmark, readCharacters?_writeNode htable hdeclared h hnode]

/-- **The bytes of a tree that is written** are read like its text. -/
theorem readBytes?_writeNode :
    readBytes? (Utf8.encode (writeNode table (writeAll declared) node)) =
      .ok (some (readBack outer node.unified)) := by
  obtain ⟨c, r, hc, hshape⟩ := exists_writeNode_of_spelt htable h hnode (writeAll declared)
  have hdecode := decode?_of_isNameStart hc r
  rw [← hshape] at hdecode
  rw [readBytes?, hdecode, ← readCharacters?_writeNode htable hdeclared h hnode]
  rfl

end

/-- **A tree is read back from its text**, if it can be written. -/
theorem readText?_of_presentable (h : node.Presentable) (hnode : node.name? ≠ none) :
    readText? node.toText = some (readBack none node.unified) := by
  obtain ⟨htable, hspelt⟩ := spelt_ofNode h
  rw [XmlNode.toText, Prefixes.declarations_eq, readText?_writeNode htable.toIsSound
    htable.declares hspelt hnode]

/-- **Reading undoes writing**: a well-formed tree whose attributes have names is read back, with
the line ends of documents and nothing behind it. -/
theorem readText?_toText (h : node.WellFormed)
    (hnames : node.NamesAttributes) :
    readText? node.toText = some (node.unified.withTail []) := by
  rw [readText?_of_presentable (h.presentable hnames) h.name?_ne_none, readBack_none h.unified]

end

end Unjar.Xml
