import Mathlib.Data.List.Nodup
import Unjar.Proofs.Xml.Declaring
import Unjar.Xml.Document

/-!
What is read from documents.

The root of a document is well formed: its elements have names, in a namespace or in none, the
attributes of an element have different names, and all texts hold what a document may hold.  The
local name of an attribute with a prefix consists of characters of names; it is a name itself unless
the attribute is there by declaration only.

Main definitions:

* `Unjar.Xml.IsNamespace`, `Unjar.Xml.IsElementName`, `Unjar.Xml.IsAttributeName` — namespaces and
  names;
* `Unjar.XmlNode.WellFormed` — what the trees of documents are like.

Main results:

* `Unjar.Xml.isSound_of_resolve?` — a start tag whose names are resolved;
* `Unjar.Xml.wellFormed_of_build?` — the tree of events;
* `Unjar.Xml.wellFormed_of_readText?`, `Unjar.Xml.wellFormed_of_readBytes?` — **the root of a
  document**.
-/

set_option autoImplicit false

namespace Unjar

namespace Xml

/-! ### Names -/

/-- **A namespace** that names may be in. -/
structure IsNamespace (uri : Text) : Prop where
  nonempty : uri ≠ []
  ne_declarationUri : uri ≠ Scope.declarationUri
  no_brace : '\x7d' ∉ uri
  content : IsContent uri

/-- **The name of an element**, in a namespace or in none. -/
inductive IsElementName : XmlName → Prop
  | plain {name : Text} (hname : isName name = true) : IsElementName (.plain name)
  | within {uri name : Text} (huri : IsNamespace uri) (hname : isName name = true) :
      IsElementName ⟨some uri, name⟩

theorem IsElementName.isName {name : XmlName} (h : IsElementName name) :
    Xml.isName name.localName = true := by
  cases h with
  | plain hname => exact hname
  | within _ hname => exact hname

/-- **The name of an attribute**, in a namespace or in none.  An attribute in a namespace may have
been declared under something that is no name. -/
inductive IsAttributeName : XmlName → Prop
  | plain {name : Text} (hname : isName name = true) (hne : name ≠ Scope.declarationName) :
      IsAttributeName (.plain name)
  | within {uri name : Text} (huri : IsNamespace uri) (hne : name ≠ [])
      (hname : ∀ c ∈ name, isNameCharacter c = true) : IsAttributeName ⟨some uri, name⟩

/-- Attributes under different names. -/
structure IsAttributes (attributes : XmlAttributes) : Prop where
  names : ∀ a ∈ attributes, IsAttributeName a.1
  values : ∀ a ∈ attributes, IsContent a.2
  distinct : (attributes.map Prod.fst).Nodup

end Xml

/-- **The trees of documents.** -/
inductive XmlNode.WellFormed : XmlNode → Prop
  | element {name : XmlName} {attributes : XmlAttributes} {text tail : Text}
      {children : List XmlNode} (hname : Xml.IsElementName name)
      (hattributes : Xml.IsAttributes attributes) (htext : Xml.IsContent text)
      (htail : Xml.IsContent tail) (hchildren : ∀ child ∈ children, child.WellFormed) :
      WellFormed (.element name attributes text children tail)

namespace Xml

/-! ### Scopes -/

namespace Scope

/-- **Prefixes that stand for namespaces**; only names without one may be in none. -/
def IsSound (scope : Scope) : Prop :=
  ∀ label uri, (label, uri) ∈ scope → (label = [] ∧ uri = []) ∨ IsNamespace uri

section

variable {scope scope' : Scope} {label uri : Text}

theorem isSound_outermost : outermost.IsSound := by
  intro label uri h
  cases List.mem_singleton.mp h
  refine .inr ⟨by decide, by decide, by decide, ?_⟩
  exact isContent_iff_all.mpr (by decide)

theorem IsSound.bind? (hscope : scope.IsSound) (huri : IsContent uri)
    (h : scope.bind? label uri = some scope') : scope'.IsSound := by
  unfold Scope.bind? at h
  split at h
  · next hdeclarable =>
    cases h
    simp only [isDeclarable, Bool.and_eq_true, Bool.not_eq_true', Bool.and_eq_false_iff,
      Bool.not_eq_false', List.isEmpty_iff, List.isEmpty_eq_false_iff, bne_iff_ne,
      List.contains_eq_mem, decide_eq_false_iff_not] at hdeclarable
    obtain ⟨⟨⟨⟨hempty, -⟩, hne⟩, -⟩, hbrace⟩ := hdeclarable
    intro label' uri' hmem
    rcases List.mem_cons.mp hmem with heq | hmem
    · cases heq
      by_cases hnil : uri = []
      · rcases hempty with hlabel | hnonempty
        · exact .inl ⟨hlabel, hnil⟩
        · exact absurd hnil hnonempty
      · exact .inr ⟨hnil, hne, hbrace, huri⟩
    · exact hscope label' uri' hmem
  · cases h

theorem IsSound.bindAll? {attributes : List (Text × Text)} (hscope : scope.IsSound)
    (hvalues : ∀ a ∈ attributes, IsContent a.2) (h : scope.bindAll? attributes = some scope') :
    scope'.IsSound := by
  induction attributes generalizing scope with
  | nil =>
      cases h
      exact hscope
  | cons a attributes ih =>
      rw [List.forall_mem_cons] at hvalues
      rw [Scope.bindAll?] at h
      split at h
      · exact ih hscope hvalues.2 h
      · obtain ⟨inner, hinner, h⟩ := Option.bind_eq_some_iff.mp h
        exact ih (hscope.bind? hvalues.1 hinner) hvalues.2 h

/-- What stands behind a prefix is in the namespace of the prefix. -/
theorem IsSound.prefixedName? (hscope : scope.IsSound) {localName : Text} {name : XmlName}
    (hlabel : label ≠ []) (h : scope.prefixedName? label localName = some name) :
    ∃ uri, IsNamespace uri ∧ name = ⟨some uri, localName⟩ := by
  obtain ⟨uri, huri, rfl⟩ := Option.map_eq_some_iff.mp h
  rcases hscope label uri (mem_of_lookup_eq_some huri) with ⟨hnil, -⟩ | hnamespace
  · exact absurd hnil hlabel
  · exact ⟨uri, hnamespace, rfl⟩

theorem IsSound.elementName? (hscope : scope.IsSound) {written : Text} {name : XmlName}
    (hwritten : isQualifiedName written = true) (h : scope.elementName? written = some name) :
    IsElementName name := by
  unfold Scope.elementName? at h
  unfold isQualifiedName at hwritten
  split at h
  · next label localName hcut =>
    rw [hcut] at hwritten
    obtain ⟨hlabel, hlocal⟩ := Bool.and_eq_true _ _ ▸ hwritten
    have hne : label ≠ [] := by
      rintro rfl
      cases hlabel
    obtain ⟨uri, huri, rfl⟩ := hscope.prefixedName? hne h
    exact .within huri hlocal
  · next hcut =>
    rw [hcut] at hwritten
    split at h
    · cases h
      exact .plain hwritten
    · cases h
      exact .plain hwritten
    · next uri hne hlookup =>
      cases h
      rcases hscope [] uri (mem_of_lookup_eq_some hlookup) with ⟨-, hnil⟩ | hnamespace
      · exact absurd hnil hne
      · exact .within hnamespace hwritten

theorem IsSound.attributeName? (hscope : scope.IsSound) {written : Text} {name : XmlName}
    (hwritten : IsDeclaredName written) (hdeclared : Scope.declared? written = none)
    (h : scope.attributeName? written = some name) : IsAttributeName name := by
  unfold Scope.attributeName? at h
  rcases hwritten with hwritten | ⟨p, n, rfl, hp, hn, hall⟩
  · rw [cutAtFirst_eq_none (not_mem_of_isName hwritten (by decide))] at h
    cases h
    refine .plain hwritten ?_
    rintro rfl
    simp [Scope.declared?] at hdeclared
  · rw [cutAtFirst_append n (not_mem_of_isName hp (by decide))] at h
    have hne : p ≠ [] := by
      rintro rfl
      cases hp
    obtain ⟨uri, huri, rfl⟩ := hscope.prefixedName? hne h
    exact .within huri hn hall

end

end Scope

/-! ### Tags -/

/-- **A start tag whose names are resolved.** -/
structure Tag.IsSound (tag : Tag) : Prop where
  name : IsElementName tag.name
  attributes : IsAttributes tag.attributes
  scope : tag.scope.IsSound

theorem Tag.areDistinct_iff {α : Type} [BEq α] [LawfulBEq α] {l : List α} :
    areDistinct l = true ↔ l.Nodup := by
  induction l with
  | nil => simp [areDistinct]
  | cons a l ih => simp [areDistinct, ih]

section

variable {d : Doctype}

theorem sound_of_valueOf? (hd : d.IsSound) {element : Text} {a : RawAttribute} {found : Text × Text}
    (ha : isQualifiedName a.1 = true ∧ ∀ piece ∈ a.2, piece.IsContent)
    (h : Tag.valueOf? d element a = some found) : IsDeclaredName found.1 ∧ IsContent found.2 := by
  obtain ⟨value, hvalue, h⟩ := Option.bind_eq_some_iff.mp h
  cases h
  exact ⟨.of_isQualifiedName ha.1, hd.attributeValue? ha.2 hvalue⟩

theorem sound_of_mem_defaults (hd : d.IsSound) {element : Text} {given : List Text}
    {found : Text × Text} (h : found ∈ Tag.defaults d element given) :
    IsDeclaredName found.1 ∧ IsContent found.2 := by
  obtain ⟨a, ha, h⟩ := List.mem_filterMap.mp h
  split at h
  · obtain ⟨value, hvalue, rfl⟩ := Option.map_eq_some_iff.mp h
    exact ⟨hd.names a ha, hd.values a ha value hvalue⟩
  · cases h

theorem sound_of_resolveAttributes? {scope : Scope} (hscope : scope.IsSound)
    {attributes : List (Text × Text)} {resolved : XmlAttributes}
    (hattributes : ∀ a ∈ attributes, IsDeclaredName a.1 ∧ IsContent a.2)
    (h : Tag.resolveAttributes? scope attributes = some resolved) :
    ∀ a ∈ resolved, IsAttributeName a.1 ∧ IsContent a.2 := by
  intro a ha
  obtain ⟨⟨written, value⟩, hwritten, h⟩ := exists_of_mem_mapM h ha
  obtain ⟨hmem, hdeclared⟩ := List.mem_filter.mp hwritten
  obtain ⟨hname, hvalue⟩ := hattributes _ hmem
  obtain ⟨name, hresolved, h⟩ := Option.bind_eq_some_iff.mp h
  cases h
  exact ⟨hscope.attributeName? hname (by simpa using hdeclared) hresolved, hvalue⟩

/-- **A start tag** within a scope. -/
theorem isSound_of_resolve? (hd : d.IsSound) {outer : Scope} (houter : outer.IsSound) {name : Text}
    {attributes : List RawAttribute} (htag : IsSoundTag name attributes) {tag : Tag}
    (h : Tag.resolve? d outer name attributes = some tag) : tag.IsSound := by
  unfold Tag.resolve? at h
  dsimp only at h
  split at h
  · cases h
  · obtain ⟨values, hvalues, h⟩ := Option.bind_eq_some_iff.mp h
    obtain ⟨scope, hscope, h⟩ := Option.bind_eq_some_iff.mp h
    obtain ⟨resolved, hresolved, h⟩ := Option.bind_eq_some_iff.mp h
    have hall : ∀ a ∈ values ++ Tag.defaults d name (attributes.map Prod.fst),
        IsDeclaredName a.1 ∧ IsContent a.2 := by
      rw [List.forall_mem_append]
      refine ⟨fun a ha => ?_, fun a ha => sound_of_mem_defaults hd ha⟩
      obtain ⟨raw, hraw, hread⟩ := exists_of_mem_mapM hvalues ha
      exact sound_of_valueOf? hd (htag.2 raw hraw) hread
    have hsound := houter.bindAll? (fun a ha => (hall a ha).2) hscope
    have hattributes := sound_of_resolveAttributes? hsound hall hresolved
    split at h
    · cases h
    · next hdistinct =>
      obtain ⟨resolvedName, hname, h⟩ := Option.bind_eq_some_iff.mp h
      cases h
      refine ⟨hsound.elementName? htag.1 hname, ⟨?_, ?_, ?_⟩, hsound⟩
      · exact fun a ha => (hattributes a ha).1
      · exact fun a ha => (hattributes a ha).2
      · exact Tag.areDistinct_iff.mp (by simpa using hdistinct)

/-! ### The tree -/

/-- **An open element** of a document. -/
structure OpenElement.IsSound (e : OpenElement) : Prop where
  tag : e.tag.IsSound
  text : IsContent e.text
  children : ∀ child ∈ e.children, child.WellFormed

theorem wellFormed_withTail {node : XmlNode} {tail : Text} (h : node.WellFormed)
    (htail : IsContent tail) : (node.withTail tail).WellFormed := by
  cases h with
  | element hname hattributes htext _ hchildren =>
      exact .element hname hattributes htext htail hchildren

theorem isContent_tail {node : XmlNode} (h : node.WellFormed) : IsContent node.tail := by
  cases h with
  | element _ _ _ htail _ => exact htail

namespace OpenElement.IsSound

variable {e : OpenElement}

theorem addText (he : e.IsSound) {t : Text} (ht : IsContent t) : (e.addText t).IsSound := by
  unfold OpenElement.addText
  split
  · exact ⟨he.tag, isContent_append.mpr ⟨he.text, ht⟩, he.children⟩
  · next last others heq =>
    have hchildren := heq ▸ he.children
    rw [List.forall_mem_cons] at hchildren
    refine ⟨he.tag, he.text, List.forall_mem_cons.mpr ⟨?_, hchildren.2⟩⟩
    exact wellFormed_withTail hchildren.1
      (isContent_append.mpr ⟨isContent_tail hchildren.1, ht⟩)

theorem addChild (he : e.IsSound) {child : XmlNode} (hchild : child.WellFormed) :
    (e.addChild child).IsSound :=
  ⟨he.tag, he.text, List.forall_mem_cons.mpr ⟨hchild, he.children⟩⟩

theorem close (he : e.IsSound) : e.close.WellFormed := by
  refine .element he.tag.name he.tag.attributes he.text isContent_nil fun child hchild => ?_
  exact he.children child (List.mem_reverse.mp hchild)

end OpenElement.IsSound

theorem isSound_scopeOf {stack : List OpenElement} (hstack : ∀ e ∈ stack, e.IsSound) :
    (scopeOf stack).IsSound := by
  cases stack with
  | nil => exact Scope.isSound_outermost
  | cons e outer => exact (hstack e List.mem_cons_self).tag.scope

/-- **The tree of events.**  The elements that are open keep to what documents are like. -/
theorem wellFormed_of_build? (hd : d.IsSound) {stack : List OpenElement} {events : List Event}
    {root : XmlNode} (hstack : ∀ e ∈ stack, e.IsSound) (hevents : ∀ event ∈ events, event.IsSound)
    (h : build? d stack events = some root) : root.WellFormed := by
  induction events generalizing stack with
  | nil => cases h
  | cons event more ih =>
      rw [List.forall_mem_cons] at hevents
      cases event with
      | startTag name attributes =>
          obtain ⟨tag, htag, h⟩ := Option.bind_eq_some_iff.mp h
          refine ih (List.forall_mem_cons.mpr ⟨?_, hstack⟩) hevents.2 h
          have htagSound := isSound_of_resolve? hd (isSound_scopeOf hstack) hevents.1 htag
          exact ⟨htagSound, isContent_nil, fun _ hchild => absurd hchild List.not_mem_nil⟩
      | text t =>
          cases stack with
          | nil => cases h
          | cons e outer =>
              rw [List.forall_mem_cons] at hstack
              exact ih (List.forall_mem_cons.mpr ⟨hstack.1.addText hevents.1, hstack.2⟩)
                hevents.2 h
      | endTag name =>
          cases stack with
          | nil => cases h
          | cons e outer =>
              rw [List.forall_mem_cons] at hstack
              unfold build? at h
              dsimp only at h
              split at h
              · cases h
              · cases outer with
                | nil =>
                    dsimp only at h
                    split at h
                    · cases h
                      exact hstack.1.close
                    · cases h
                | cons parent outer =>
                    have hparent := List.forall_mem_cons.mp hstack.2
                    exact ih (List.forall_mem_cons.mpr
                      ⟨hparent.1.addChild hstack.1.close, hparent.2⟩) hevents.2 h

/-! ### Documents -/

theorem mem_of_cutAtRoot? {depth : Nat} {tokens root others : List Token}
    (h : cutAtRoot? depth tokens = some (root, others)) : ∀ token ∈ root, token ∈ tokens := by
  fun_induction cutAtRoot? depth tokens generalizing root with
  | case1 | case3 | case6 => cases h
  | case2 depth name attributes more ih | case5 name more depth ih | case7 token more _ _ depth ih =>
      obtain ⟨⟨inner, rest⟩, hinner, heq⟩ := Option.map_eq_some_iff.mp h
      cases heq
      intro token htoken
      rcases List.mem_cons.mp htoken with rfl | htoken
      · exact List.mem_cons_self
      · exact List.mem_cons_of_mem _ (ih hinner token htoken)
  | case4 =>
      cases h
      intro token htoken
      rw [List.mem_singleton.mp htoken]
      exact List.mem_cons_self

variable {t rest : Text} {root : XmlNode}

theorem isContent_of_afterMiscellany? (ht : IsContent t) (h : afterMiscellany? t = some rest) :
    IsContent rest := by
  have hs := ht.dropSpaces
  fun_induction afterMiscellany? t with
  | case1 | case3 => cases h
  | case2 t r hr rest' hafter ih =>
      simp only [hr, isContent_cons] at hs
      have hrest := isContent_of_afterInstruction? hs.2.2 hafter
      exact ih hrest h hrest.dropSpaces
  | case4 t r hr rest' hafter ih =>
      simp only [hr, isContent_cons] at hs
      have hrest := isContent_of_afterComment? hs.2.2.2.2 hafter
      exact ih hrest h hrest.dropSpaces
  | case5 =>
      cases h
      assumption

theorem sound_of_readProlog? {standsAlone : Bool} (ht : IsContent t)
    (h : readProlog? standsAlone t = some (d, rest)) : d.IsSound ∧ IsContent rest := by
  obtain ⟨inner, hinner, h⟩ := Option.bind_eq_some_iff.mp h
  have hcontent := isContent_of_afterMiscellany? ht hinner
  split at h
  · cases h
    exact ⟨Doctype.isSound_empty standsAlone, hcontent⟩
  · next after hafter =>
    rw [dropPrefix?_eq_some hafter, isContent_append] at hcontent
    obtain ⟨⟨d', rest'⟩, hread, h⟩ := Option.bind_eq_some_iff.mp h
    obtain ⟨rest'', hrest, h⟩ := Option.bind_eq_some_iff.mp h
    cases h
    obtain ⟨hd', hrest'⟩ :=
      Doctype.isSound_of_read? (Doctype.isSound_empty standsAlone) hcontent.2 hread
    exact ⟨hd', isContent_of_afterMiscellany? hrest' hrest⟩

theorem isContent_of_readHeading? {heading : Heading} (ht : IsContent t)
    (h : Heading.read? t = some (heading, rest)) : IsContent rest := by
  unfold Heading.read? at h
  split at h
  · cases h
    exact ht
  · obtain ⟨⟨items, after⟩, hcut, h⟩ := Option.bind_eq_some_iff.mp h
    obtain ⟨read, hread, h⟩ := Option.bind_eq_some_iff.mp h
    obtain ⟨heading', hheading, h⟩ := Option.bind_eq_some_iff.mp h
    cases h
    have hbehind : IsContent (t.drop Heading.opening.length) :=
      ht.subset (List.drop_sublist _ _).subset
    rw [cutAtPattern_eq_some hcut, isContent_append] at hbehind
    exact hbehind.2

theorem wellFormed_of_readRoot? (ht : IsContent t) (h : readRoot? t = some root) :
    root.WellFormed := by
  obtain ⟨⟨heading, behind⟩, hheading, h⟩ := Option.bind_eq_some_iff.mp h
  obtain ⟨⟨d, inner⟩, hprolog, h⟩ := Option.bind_eq_some_iff.mp h
  obtain ⟨tokens, htokens, h⟩ := Option.bind_eq_some_iff.mp h
  obtain ⟨⟨body, others⟩, hcut, h⟩ := Option.bind_eq_some_iff.mp h
  have hbehind := isContent_of_readHeading? ht hheading
  obtain ⟨hd, hinner⟩ := sound_of_readProlog? hbehind hprolog
  have hsound := isSound_of_tokens? hinner htokens
  dsimp only at h
  split at h
  · cases h
  · obtain ⟨events, hevents, h⟩ := Option.bind_eq_some_iff.mp h
    refine wellFormed_of_build? hd (fun _ he => absurd he List.not_mem_nil) ?_ h
    refine Entities.isSound_of_events? hd.texts (fun token htoken => ?_) hevents
    exact hsound token (mem_of_cutAtRoot? hcut token htoken)

/-- Only what may stand in a document is one. -/
theorem isContent_of_readCharacters? (h : readCharacters? t = some root) : IsContent t := by
  unfold readCharacters? at h
  split at h
  · next hall => exact isContent_iff_all.mpr hall
  · cases h

theorem wellFormed_of_readCharacters? (h : readCharacters? t = some root) : root.WellFormed := by
  unfold readCharacters? at h
  split at h
  · next hall => exact wellFormed_of_readRoot? (isContent_iff_all.mpr hall).unifyLineEnds h
  · cases h

/-- **The root of a document** that is given as a text. -/
theorem wellFormed_of_readText? (h : readText? t = some root) : root.WellFormed :=
  wellFormed_of_readCharacters? h

/-- **The root of a document** that is given as bytes. -/
theorem wellFormed_of_readBytes? {bytes : Bytes} (h : readBytes? bytes = .ok (some root)) :
    root.WellFormed := by
  unfold readBytes? at h
  cases hdecode : decode? bytes with
  | error fault =>
      rw [hdecode] at h
      cases h
  | ok t? =>
      rw [hdecode] at h
      obtain ⟨t, -, hread⟩ := Option.bind_eq_some_iff.mp (Except.ok.inj h)
      exact wellFormed_of_readCharacters? hread

end

end Xml

end Unjar
