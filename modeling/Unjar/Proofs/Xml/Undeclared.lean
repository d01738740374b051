import Unjar.Proofs.Xml.RoundTrip

/-!
Documents without a declaration of their type.

Where no type is declared, an element has the attributes that are given in its tag and no others, and
those have names.  So a tree that is written and can be read has attributes with names, whatever was
written.

Main results:

* `Unjar.Xml.namesAttributes_of_build?` — attributes that are given have names;
* `Unjar.Xml.namesAttributes_of_readText?` — **the attributes of a document** that begins with its
  root;
* `Unjar.Xml.presentable_of_readText?` — such a document can be written again.
-/

set_option autoImplicit false

namespace Unjar.Xml

section

variable {d : Doctype} {scope : Scope}

theorem isName_of_attributeName? {written : Text} {name : XmlName}
    (hwritten : isQualifiedName written = true) (h : scope.attributeName? written = some name) :
    isName name.localName = true := by
  unfold Scope.attributeName? at h
  unfold isQualifiedName at hwritten
  split at h
  · next label localName hcut =>
    rw [hcut] at hwritten
    obtain ⟨uri, -, rfl⟩ := Option.map_eq_some_iff.mp h
    exact (Bool.and_eq_true _ _ ▸ hwritten).2
  · next hcut =>
    rw [hcut] at hwritten
    cases h
    exact hwritten

/-- Without declarations an element has the attributes of its tag. -/
theorem defaults_eq_nil (hd : d.attributes = []) (element : Text) (given : List Text) :
    Tag.defaults d element given = [] := by
  rw [Tag.defaults, hd]
  rfl

/-- **The attributes of a tag** have names. -/
theorem isName_of_resolve? (hd : d.attributes = []) {name : Text}
    {attributes : List RawAttribute} (hgiven : ∀ a ∈ attributes, isQualifiedName a.1 = true)
    {tag : Tag} (h : Tag.resolve? d scope name attributes = some tag) :
    ∀ a ∈ tag.attributes, isName a.1.localName = true := by
  unfold Tag.resolve? at h
  dsimp only at h
  split at h
  · cases h
  · obtain ⟨values, hvalues, h⟩ := Option.bind_eq_some_iff.mp h
    obtain ⟨inner, -, h⟩ := Option.bind_eq_some_iff.mp h
    obtain ⟨resolved, hresolved, h⟩ := Option.bind_eq_some_iff.mp h
    split at h
    · cases h
    · obtain ⟨resolvedName, -, h⟩ := Option.bind_eq_some_iff.mp h
      cases h
      intro a ha
      obtain ⟨⟨written, value⟩, hwritten, hname⟩ := exists_of_mem_mapM hresolved ha
      obtain ⟨found, hfound, hname⟩ := Option.bind_eq_some_iff.mp hname
      cases hname
      -- the attribute is one of those that are given
      have hmem := (List.mem_filter.mp hwritten).1
      rw [defaults_eq_nil hd, List.append_nil] at hmem
      obtain ⟨raw, hraw, hread⟩ := exists_of_mem_mapM hvalues hmem
      obtain ⟨read, -, hread⟩ := Option.bind_eq_some_iff.mp hread
      cases hread
      exact isName_of_attributeName? (hgiven raw hraw) hfound

/-! ### The tree -/

/-- An open element whose attributes have names. -/
structure OpenElement.NamesAttributes (e : OpenElement) : Prop where
  own : ∀ a ∈ e.tag.attributes, isName a.1.localName = true
  children : ∀ child ∈ e.children, child.NamesAttributes

theorem namesAttributes_element {name : XmlName} {attributes : XmlAttributes} {text tail : Text}
    {children : List XmlNode} :
    (XmlNode.element name attributes text children tail).NamesAttributes ↔
      (∀ a ∈ attributes, isName a.1.localName = true) ∧
        ∀ child ∈ children, child.NamesAttributes := by
  simp only [XmlNode.NamesAttributes, XmlNode.attributeNames, XmlNode.allAttributeNames_eq_flatMap,
    List.forall_mem_append, List.forall_mem_map, List.mem_flatMap, forall_exists_index, and_imp]
  refine and_congr_right fun _ => ⟨fun h child hchild name => h name child hchild,
    fun h name child hchild => h child hchild name⟩

theorem namesAttributes_withTail {node : XmlNode} (t : Text) :
    (node.withTail t).NamesAttributes ↔ node.NamesAttributes := by
  cases node with
  | comment => rfl
  | element => rw [XmlNode.withTail, namesAttributes_element, namesAttributes_element]

namespace OpenElement.NamesAttributes

variable {e : OpenElement}

theorem addText (he : e.NamesAttributes) (t : Text) : (e.addText t).NamesAttributes := by
  unfold OpenElement.addText
  split
  · exact ⟨he.own, he.children⟩
  · next last others heq =>
    have hchildren := heq ▸ he.children
    rw [List.forall_mem_cons] at hchildren
    exact ⟨he.own, List.forall_mem_cons.mpr
      ⟨(namesAttributes_withTail _).mpr hchildren.1, hchildren.2⟩⟩

theorem addChild (he : e.NamesAttributes) {child : XmlNode} (hchild : child.NamesAttributes) :
    (e.addChild child).NamesAttributes :=
  ⟨he.own, List.forall_mem_cons.mpr ⟨hchild, he.children⟩⟩

theorem close (he : e.NamesAttributes) : e.close.NamesAttributes :=
  namesAttributes_element.mpr
    ⟨he.own, fun child hchild => he.children child (List.mem_reverse.mp hchild)⟩

end OpenElement.NamesAttributes

/-- **The tree of events** without declarations: the elements that are open have attributes with
names. -/
theorem namesAttributes_of_build? (hd : d.attributes = []) {stack : List OpenElement}
    {events : List Event} {root : XmlNode} (hstack : ∀ e ∈ stack, e.NamesAttributes)
    (hevents : ∀ event ∈ events, event.IsSound) (h : build? d stack events = some root) :
    root.NamesAttributes := by
  induction events generalizing stack with
  | nil => cases h
  | cons event more ih =>
      rw [List.forall_mem_cons] at hevents
      cases event with
      | startTag name attributes =>
          obtain ⟨tag, htag, h⟩ := Option.bind_eq_some_iff.mp h
          have hown := isName_of_resolve? hd (fun a ha => (hevents.1.2 a ha).1) htag
          exact ih (List.forall_mem_cons.mpr
            ⟨⟨hown, fun _ hchild => absurd hchild List.not_mem_nil⟩, hstack⟩) hevents.2 h
      | text t =>
          cases stack with
          | nil => cases h
          | cons e outer =>
              rw [List.forall_mem_cons] at hstack
              exact ih (List.forall_mem_cons.mpr ⟨hstack.1.addText t, hstack.2⟩) hevents.2 h
      | endTag name =>
          -- what is closed becomes a child of the element around it, or the root
          cases stack with
          | nil => cases h
          | cons e outer =>
              rw [List.forall_mem_cons] at hstack
              unfold build? at h
              dsimp only at h
              split at h
              · cases h
              · cases outer with
                | nil =>
                    dsimp only at h
                    split at h
                    · cases h
                      exact hstack.1.close
                    · cases h
                | cons parent outer =>
                    have hparent := List.forall_mem_cons.mp hstack.2
                    exact ih (List.forall_mem_cons.mpr
                      ⟨hparent.1.addChild hstack.1.close, hparent.2⟩) hevents.2 h

end

/-! ### Documents -/

section

variable {t r : Text} {c : Char} {root : XmlNode}

/-- **The attributes of a document** that begins with its root have names. -/
theorem namesAttributes_of_readText? (hc : isNameStart c = true) (ht : t = '<' :: c :: r)
    (h : readText? t = some root) : root.NamesAttributes := by
  have hmark : dropTextMark t = t := by
    rw [ht]
    rfl
  have hreturn : c ≠ '\r' := by
    rintro rfl
    revert hc
    decide
  rw [readText?, hmark, readCharacters?] at h
  split at h
  · next hall =>
    have hcontent := (isContent_iff_all.mpr hall).unifyLineEnds
    rw [ht, Text.unifyLineEnds_cons (by decide), Text.unifyLineEnds_cons hreturn] at h hcontent
    obtain ⟨⟨heading, behind⟩, hheading, h⟩ := Option.bind_eq_some_iff.mp h
    rw [readHeading?_of_ne (ne_of_isNameStart hc (by decide))] at hheading
    cases hheading
    -- the root comes first, so that the type of the document is empty
    obtain ⟨⟨d, inner⟩, hprolog, h⟩ := Option.bind_eq_some_iff.mp h
    rw [readProlog?_of_isNameStart hc _ rfl] at hprolog
    cases hprolog
    obtain ⟨tokens, htokens, h⟩ := Option.bind_eq_some_iff.mp h
    obtain ⟨⟨body, others⟩, hcut, h⟩ := Option.bind_eq_some_iff.mp h
    have hsound := isSound_of_tokens? hcontent htokens
    dsimp only at h
    split at h
    · cases h
    · obtain ⟨events, hevents, h⟩ := Option.bind_eq_some_iff.mp h
      refine namesAttributes_of_build? rfl (fun _ he => absurd he List.not_mem_nil) ?_ h
      refine Entities.isSound_of_events? (Doctype.isSound_empty _).texts
        (fun token htoken => ?_) hevents
      exact hsound token (mem_of_cutAtRoot? hcut token htoken)
  · cases h

/-- **A tree in no namespace that was written and can be read** can be written again, whatever its
attributes are. -/
theorem presentable_of_readText? {node : XmlNode} (hnode : node.WellFormed)
    (h : readText? node.withoutNamespaces.toText = some root) : root.Presentable := by
  cases hnode with
  | @element name attributes text tail children hname _ _ _ _ =>
      have hqualified : ∀ table : Prefixes,
          isQualifiedName (table.qualified (.plain name.localName)) = true :=
        fun table => isQualifiedName_iff.mpr (.inl hname.isName)
      let table := Prefixes.ofNode
        (XmlNode.element name attributes text children tail).withoutNamespaces
      obtain ⟨c, r, hc, hshape⟩ := writeNode_head (hqualified table) table.declarations attributes
        text (XmlNode.allWithoutNamespaces children) tail
      exact (wellFormed_of_readText? h).presentable (namesAttributes_of_readText? hc hshape h)

end

end Unjar.Xml
