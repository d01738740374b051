import Unjar.Proofs.Xml.Resolving

/-!
Trees whose names can be spelt.

A tree can be written if it is like the trees of documents, the names of its attributes are names,
and its comments can stand as comments.  All names of such a tree can be spelt with the prefixes of
the tree, and what is written of it may stand in a document.  Line ends within texts are written as
they are, so a reader finds the tree with the line ends of documents.

Main definitions:

* `Unjar.XmlNode.attributeNames`, `Unjar.XmlNode.NamesAttributes` — the names of all attributes of a
  tree;
* `Unjar.XmlNode.Presentable` — **trees that can be written**;
* `Unjar.XmlNode.unified` — a tree with the line ends of documents;
* `Unjar.Xml.Spelt` — trees whose names a table of prefixes spells.

Main results:

* `Unjar.Xml.spelt_ofNode` — **the prefixes of a tree spell its names**;
* `Unjar.Xml.Spelt.isContent_writeNode` — what is written may stand in a document;
* `Unjar.Xml.Spelt.unifyLineEnds_writeNode` — line ends of what is written.
-/

set_option autoImplicit false

namespace Unjar

namespace XmlNode

mutual

/-- The names of all attributes of a tree. -/
def attributeNames : XmlNode → List XmlName
  | comment .. => []
  | element _ attributes _ children _ => attributes.map Prod.fst ++ allAttributeNames children

/-- The names of all attributes of trees. -/
def allAttributeNames : List XmlNode → List XmlName
  | [] => []
  | node :: more => attributeNames node ++ allAttributeNames more

end

mutual

/-- **A tree with the line ends of documents**, in its texts and behind it. -/
def unified : XmlNode → XmlNode
  | comment content tail => comment content (Text.unifyLineEnds tail)
  | element name attributes text children tail =>
    element name attributes (Text.unifyLineEnds text) (allUnified children)
      (Text.unifyLineEnds tail)

/-- Trees with the line ends of documents. -/
def allUnified : List XmlNode → List XmlNode
  | [] => []
  | node :: more => unified node :: allUnified more

end

section

variable {node : XmlNode} {nodes : List XmlNode}

theorem allUnified_eq_map : allUnified nodes = nodes.map unified := by
  induction nodes with
  | nil => rfl
  | cons node nodes ih => rw [allUnified, ih, List.map_cons]

@[simp] theorem name?_unified : node.unified.name? = node.name? := by
  cases node <;> rfl

theorem unified_tail : node.unified.tail = Text.unifyLineEnds node.tail := by
  cases node <;> rfl

theorem allAttributeNames_eq_flatMap : allAttributeNames nodes = nodes.flatMap attributeNames := by
  induction nodes with
  | nil => rfl
  | cons node nodes ih => rw [allAttributeNames, ih, List.flatMap_cons]

theorem WellFormed.name?_ne_none (h : node.WellFormed) : node.name? ≠ none := by
  cases h
  exact Option.some_ne_none _

theorem WellFormed.unified (h : node.WellFormed) : node.unified.WellFormed := by
  induction h with
  | element hname hattributes htext htail _ ih =>
      refine .element hname hattributes htext.unifyLineEnds htail.unifyLineEnds ?_
      rw [allUnified_eq_map, List.forall_mem_map]
      exact ih

/-- **All attributes have names.**  An attribute with a prefix that is there by declaration only may
have none. -/
def NamesAttributes (node : XmlNode) : Prop :=
  ∀ name ∈ node.attributeNames, Xml.isName name.localName = true

instance : Decidable node.NamesAttributes :=
  inferInstanceAs (Decidable (∀ name ∈ node.attributeNames, _))

/-- **Trees that can be written.** -/
inductive Presentable : XmlNode → Prop
  | comment {content tail : Text} (hcontent : Xml.IsRemark content) (htail : Xml.IsContent tail) :
      Presentable (.comment content tail)
  | element {name : XmlName} {attributes : XmlAttributes} {text tail : Text}
      {children : List XmlNode} (hname : Xml.IsElementName name)
      (hattributes : Xml.IsAttributes attributes)
      (hnames : ∀ a ∈ attributes, Xml.isName a.1.localName = true) (htext : Xml.IsContent text)
      (htail : Xml.IsContent tail) (hchildren : ∀ child ∈ children, Presentable child) :
      Presentable (.element name attributes text children tail)

/-- The trees of documents can be written, if their attributes have names. -/
theorem WellFormed.presentable (h : node.WellFormed) (hnames : node.NamesAttributes) :
    node.Presentable := by
  induction h with
  | @element name attributes text tail children hname hattributes htext htail _ ih =>
      rw [NamesAttributes, attributeNames, List.forall_mem_append, List.forall_mem_map,
        allAttributeNames_eq_flatMap] at hnames
      refine .element hname hattributes hnames.1 htext htail fun child hchild => ?_
      refine ih child hchild fun name hname => hnames.2 name ?_
      exact List.mem_flatMap.mpr ⟨child, hchild, hname⟩

end

end XmlNode

namespace Xml

section

variable {table : Prefixes} {node : XmlNode} {nodes : List XmlNode} {uri : Text}

/-! ### Namespaces of trees -/

theorem allUris_eq_flatMap : allUris nodes = nodes.flatMap nodeUris := by
  induction nodes with
  | nil => rfl
  | cons node nodes ih => rw [allUris, ih, List.flatMap_cons]

theorem mem_tagUris {name : XmlName} {attributes : XmlAttributes} :
    uri ∈ tagUris name attributes ↔ name.uri = some uri ∨ ∃ a ∈ attributes, a.1.uri = some uri := by
  simp [tagUris]

theorem IsElementName.isNamespace {name : XmlName} (h : IsElementName name)
    (huri : name.uri = some uri) : IsNamespace uri := by
  cases h with
  | plain => cases huri
  | within hnamespace _ =>
      cases huri
      exact hnamespace

theorem IsAttributeName.isNamespace {name : XmlName} (h : IsAttributeName name)
    (huri : name.uri = some uri) : IsNamespace uri := by
  cases h with
  | plain => cases huri
  | within hnamespace _ _ =>
      cases huri
      exact hnamespace

/-- The names of a tree are in namespaces that names may be in. -/
theorem isNamespace_of_mem_nodeUris (h : node.Presentable) (huri : uri ∈ nodeUris node) :
    IsNamespace uri := by
  induction h with
  | comment => cases huri
  | element hname hattributes _ _ _ _ ih =>
      rw [nodeUris, List.mem_append, mem_tagUris, allUris_eq_flatMap, List.mem_flatMap] at huri
      rcases huri with (huri | ⟨a, ha, huri⟩) | ⟨child, hchild, huri⟩
      · exact hname.isNamespace huri
      · exact (hattributes.names a ha).isNamespace huri
      · exact ih child hchild huri

/-! ### Spelling -/

/-- **Trees whose names a table spells.** -/
inductive Spelt (table : Prefixes) : XmlNode → Prop
  | comment {content tail : Text} (hcontent : IsRemark content) (htail : IsContent tail) :
      Spelt table (.comment content tail)
  | element {name : XmlName} {attributes : XmlAttributes} {text tail : Text}
      {children : List XmlNode} (hname : table.Spells name) (hattributes : IsAttributes attributes)
      (hspelt : ∀ a ∈ attributes, table.Spells a.1) (htext : IsContent text)
      (htail : IsContent tail) (hchildren : ∀ child ∈ children, Spelt table child) :
      Spelt table (.element name attributes text children tail)

/-- A tree is spelt with a table for its namespaces. -/
theorem spelt_of_names (h : node.Presentable) (huris : ∀ uri ∈ nodeUris node, table.Names uri) :
    Spelt table node := by
  induction h with
  | comment hcontent htail => exact .comment hcontent htail
  | @element name attributes text tail children hname hattributes hnames htext htail _ ih =>
      have huri : ∀ uri, name.uri = some uri ∨ (∃ a ∈ attributes, a.1.uri = some uri) ∨
          (∃ child ∈ children, uri ∈ nodeUris child) → table.Names uri := by
        intro uri h
        refine huris uri ?_
        rw [nodeUris, List.mem_append, mem_tagUris, allUris_eq_flatMap, List.mem_flatMap, or_assoc]
        exact h
      refine .element ⟨fun uri h => huri uri (.inl h), hname.isName⟩ hattributes (fun a ha => ?_)
        htext htail fun child hchild => ?_
      · exact ⟨fun uri h => huri uri (.inr (.inl ⟨a, ha, h⟩)), hnames a ha⟩
      · exact ih child hchild fun uri h => huri uri (.inr (.inr ⟨child, hchild, h⟩))

/-- **The prefixes of a tree spell its names.** -/
theorem spelt_ofNode (h : node.Presentable) :
    (Prefixes.ofNode node).IsNumbered ∧ Spelt (.ofNode node) node := by
  have huris : ∀ uri ∈ nodeUris node, IsNamespace uri :=
    fun uri huri => isNamespace_of_mem_nodeUris h huri
  refine ⟨Prefixes.isNumbered_ofNode huris, spelt_of_names h fun uri huri => ?_⟩
  exact Prefixes.names_ofNode huris huri

theorem Spelt.writable (htable : table.IsSound) (h : Spelt table node) : Writable table node := by
  induction h with
  | comment hcontent _ => exact .comment hcontent
  | element hname _ hspelt _ _ _ ih =>
      refine .element (htable.isQualifiedName hname) (fun a ha => ?_) ih
      exact htable.isQualifiedName (hspelt a ha)

theorem Spelt.unified (h : Spelt table node) : Spelt table node.unified := by
  induction h with
  | comment hcontent htail => exact .comment hcontent htail.unifyLineEnds
  | element hname hattributes hspelt htext htail _ ih =>
      refine .element hname hattributes hspelt htext.unifyLineEnds htail.unifyLineEnds ?_
      rw [XmlNode.allUnified_eq_map, List.forall_mem_map]
      exact ih

/-! ### Characters of what is written -/

theorem IsContent.escapeText {t : Text} (h : IsContent t) : IsContent (escapeText t) := by
  intro c hc
  obtain ⟨d, hd, hc⟩ := List.mem_flatMap.mp hc
  unfold escapeTextCharacter at hc
  split at hc
  · exact (by decide : IsContent "&amp;".toList) c hc
  · exact (by decide : IsContent "&lt;".toList) c hc
  · exact (by decide : IsContent "&gt;".toList) c hc
  · rw [List.mem_singleton.mp hc]
    exact h d hd

theorem IsContent.escapeAttribute {t : Text} (h : IsContent t) :
    IsContent (escapeAttribute t) := by
  intro c hc
  obtain ⟨d, hd, hc⟩ := List.mem_flatMap.mp hc
  unfold escapeAttributeCharacter at hc
  split at hc
  · exact (by decide : IsContent "&quot;".toList) c hc
  · exact (by decide : IsContent "&#13;".toList) c hc
  · exact (by decide : IsContent "&#10;".toList) c hc
  · exact (by decide : IsContent "&#09;".toList) c hc
  · have hone : IsContent (Xml.escapeText [d]) :=
      IsContent.escapeText (isContent_cons.mpr ⟨h d hd, isContent_nil⟩)
    exact hone c (by simpa [Xml.escapeText] using hc)

theorem isContent_writeAll {attributes : WrittenAttributes}
    (h : ∀ a ∈ attributes, isQualifiedName a.1 = true ∧ IsContent a.2) :
    IsContent (writeAll attributes) := by
  intro c hc
  obtain ⟨a, ha, hc⟩ := List.mem_flatMap.mp hc
  obtain ⟨hname, hvalue⟩ := h a ha
  have hall : IsContent (' ' :: a.1 ++ "=\"".toList ++ escapeAttribute a.2 ++ ['"']) := by
    simp only [isContent_append, isContent_cons]
    exact ⟨⟨⟨⟨by decide, .of_isQualifiedName hname⟩, by decide⟩, hvalue.escapeAttribute⟩, by decide⟩
  exact hall c hc

theorem isContent_writeChildren (htails : ∀ node ∈ nodes, IsContent node.tail)
    (h : ∀ node ∈ nodes, IsContent (writeNode table [] node)) :
    IsContent (writeChildren table nodes) := by
  induction nodes with
  | nil => exact isContent_nil
  | cons node nodes ih =>
      rw [List.forall_mem_cons] at htails h
      simp only [writeChildren, isContent_append]
      exact ⟨⟨h.1, htails.1.escapeText⟩, ih htails.2 h.2⟩

theorem Spelt.isContent_tail (h : Spelt table node) : IsContent node.tail := by
  cases h with
  | comment _ htail => exact htail
  | element _ _ _ _ htail _ => exact htail

theorem written_spelt (htable : table.IsSound) {attributes : XmlAttributes}
    (hattributes : IsAttributes attributes) (hspelt : ∀ a ∈ attributes, table.Spells a.1) :
    ∀ a ∈ writtenAttributes table attributes, isQualifiedName a.1 = true ∧ IsContent a.2 := by
  intro a ha
  obtain ⟨given, hgiven, rfl⟩ := List.mem_map.mp ha
  exact ⟨htable.isQualifiedName (hspelt given hgiven), hattributes.values given hgiven⟩

/-- **What is written of a tree** may stand in a document. -/
theorem Spelt.isContent_writeNode (htable : table.IsSound) (h : Spelt table node)
    {declared : WrittenAttributes}
    (hdeclared : ∀ a ∈ declared, isQualifiedName a.1 = true ∧ IsContent a.2) :
    IsContent (writeNode table (writeAll declared) node) := by
  induction h generalizing declared with
  | comment hcontent _ =>
      exact isContent_append.mpr
        ⟨isContent_append.mpr ⟨by decide, hcontent.content⟩, by decide⟩
  | @element name attributes text tail children hname hattributes hspelt htext htail hchildren ih =>
      have htag : IsContent (table.qualified name) :=
        .of_isQualifiedName (htable.isQualifiedName hname)
      have hstart : IsContent ('<' :: table.qualified name ++ writeAll declared ++
          writeAttributes table attributes) := by
        rw [writeAttributes_eq]
        simp only [isContent_append, isContent_cons]
        exact ⟨⟨⟨by decide, htag⟩, isContent_writeAll hdeclared⟩,
          isContent_writeAll (written_spelt htable hattributes hspelt)⟩
      have hinner : IsContent (writeChildren table children) := by
        refine isContent_writeChildren (fun child hchild => (hchildren child hchild).isContent_tail)
          fun child hchild => ?_
        exact ih child hchild fun _ ha => absurd ha List.not_mem_nil
      rw [writeNode]
      split
      · exact isContent_append.mpr ⟨hstart, by decide⟩
      · refine isContent_append.mpr ⟨?_, by decide⟩
        refine isContent_append.mpr ⟨isContent_append.mpr ⟨?_, by decide⟩, htag⟩
        refine isContent_append.mpr ⟨isContent_append.mpr ⟨hstart, ?_⟩, hinner⟩
        exact isContent_cons.mpr ⟨by decide, htext.escapeText⟩

/-! ### Line ends of what is written -/

theorem return_not_mem_escapeTextCharacter {c : Char} (hc : c ≠ '\r') :
    '\r' ∉ escapeTextCharacter c := by
  unfold escapeTextCharacter
  split
  · decide
  · decide
  · decide
  · simpa using Ne.symm hc

theorem head?_escapeText {c : Char} {t : Text} (hc : c ≠ '&') (h : t.head? ≠ some c) :
    (escapeText t).head? ≠ some c := by
  cases t with
  | nil => exact h
  | cons d t =>
      rw [escapeText, List.flatMap_cons]
      unfold escapeTextCharacter
      split
      · simpa using Ne.symm hc
      · simpa using Ne.symm hc
      · simpa using Ne.symm hc
      · simpa using h

theorem unifyLineEnds_escapeText (t : Text) :
    Text.unifyLineEnds (escapeText t) = escapeText (Text.unifyLineEnds t) := by
  fun_induction Text.unifyLineEnds t with
  | case1 => rfl
  | case2 r ih =>
      change Text.unifyLineEnds ('\r' :: '\n' :: escapeText r) = '\n' :: escapeText _
      rw [Text.unifyLineEnds, ih]
  | case3 c r hpair ih =>
      change Text.unifyLineEnds (escapeTextCharacter c ++ escapeText r) =
        escapeTextCharacter _ ++ escapeText (Text.unifyLineEnds r)
      by_cases hc : c = '\r'
      · subst hc
        have hhead : (escapeText r).head? ≠ some '\n' := by
          refine head?_escapeText (by decide) fun hr => ?_
          obtain ⟨r', rfl⟩ := List.head?_eq_some_iff.mp hr
          exact hpair r' rfl rfl
        rw [Text.unifyLineEnds_append hhead, ih]
        rfl
      · rw [Text.unifyLineEnds_append_of_not_mem (return_not_mem_escapeTextCharacter hc), ih,
          if_neg (by simpa using hc)]

theorem return_not_mem_of_isQualifiedName {t : Text} (h : isQualifiedName t = true) : '\r' ∉ t := by
  intro hmem
  have := isQualifiedCharacter_of_isQualifiedName h _ hmem
  revert this
  decide

theorem return_not_mem_writeAll {attributes : WrittenAttributes}
    (h : ∀ a ∈ attributes, isQualifiedName a.1 = true) : '\r' ∉ writeAll attributes := by
  intro hmem
  obtain ⟨a, ha, hmem⟩ := List.mem_flatMap.mp hmem
  have hname := return_not_mem_of_isQualifiedName (h a ha)
  have hvalue : '\r' ∉ escapeAttribute a.2 := not_mem_escapeAttribute (by simp)
  simp [hname, hvalue] at hmem

/-- The line ends of children, if those of each child are known. -/
theorem unifyLineEnds_writeChildren (hwritable : ∀ node ∈ nodes, Writable table node)
    (h : ∀ node ∈ nodes, ∀ rest, Text.unifyLineEnds (writeNode table [] node ++ rest) =
      writeNode table [] node.unified ++ Text.unifyLineEnds rest) (rest : Text) :
    Text.unifyLineEnds (writeChildren table nodes ++ '<' :: rest) =
      writeChildren table (XmlNode.allUnified nodes) ++ Text.unifyLineEnds ('<' :: rest) := by
  induction nodes with
  | nil => rfl
  | cons node nodes ih =>
      rw [List.forall_mem_cons] at hwritable h
      obtain ⟨r, hr⟩ := exists_writeChildren hwritable.2 rest
      have hhead : (writeChildren table nodes ++ '<' :: rest).head? ≠ some '\n' := by simp [hr]
      rw [writeChildren, List.append_assoc, List.append_assoc, h.1,
        Text.unifyLineEnds_append hhead, unifyLineEnds_escapeText, ih hwritable.2 h.2,
        XmlNode.allUnified, writeChildren, XmlNode.unified_tail, List.append_assoc,
        List.append_assoc]

/-- **The line ends of what is written** are those of the texts. -/
theorem Spelt.unifyLineEnds_writeNode (htable : table.IsSound) (h : Spelt table node)
    {declared : WrittenAttributes} (hdeclared : ∀ a ∈ declared, isQualifiedName a.1 = true)
    (rest : Text) :
    Text.unifyLineEnds (writeNode table (writeAll declared) node ++ rest) =
      writeNode table (writeAll declared) node.unified ++ Text.unifyLineEnds rest := by
  induction h generalizing declared rest with
  | @comment content tail hcontent _ =>
      have hall : '\r' ∉ "<!--".toList ++ content ++ "-->".toList :=
        List.not_mem_append (List.not_mem_append (by decide) hcontent.no_return) (by decide)
      exact Text.unifyLineEnds_append_of_not_mem hall rest
  | @element name attributes text tail children hname hattributes hspelt htext htail hchildren ih =>
      have htag : '\r' ∉ table.qualified name :=
        return_not_mem_of_isQualifiedName (htable.isQualifiedName hname)
      have hattributes' : '\r' ∉ writeAttributes table attributes := by
        rw [writeAttributes_eq]
        exact return_not_mem_writeAll fun a ha => (written_spelt htable hattributes hspelt a ha).1
      have hstart : '\r' ∉ '<' :: table.qualified name ++ writeAll declared ++
          writeAttributes table attributes := by
        simp [htag, hattributes', return_not_mem_writeAll hdeclared]
      have hchild : ∀ child ∈ children, ∀ rest,
          Text.unifyLineEnds (writeNode table [] child ++ rest) =
            writeNode table [] child.unified ++ Text.unifyLineEnds rest := fun child hchild rest =>
        ih child hchild (fun _ ha => absurd ha List.not_mem_nil) rest
      have hwritable : ∀ child ∈ children, Writable table child :=
        fun child hchild => (hchildren child hchild).writable htable
      have hempty : ((Text.unifyLineEnds text).isEmpty && (XmlNode.allUnified children).isEmpty) =
          (text.isEmpty && children.isEmpty) := by
        rw [Text.isEmpty_unifyLineEnds, XmlNode.allUnified_eq_map, List.isEmpty_map]
      rw [XmlNode.unified, writeNode, writeNode, hempty]
      split
      · have hall : '\r' ∉ '<' :: table.qualified name ++ writeAll declared ++
            writeAttributes table attributes ++ " />".toList :=
          List.not_mem_append hstart (by decide)
        exact Text.unifyLineEnds_append_of_not_mem hall rest
      · have hopen : '\r' ∉ '<' :: table.qualified name ++ writeAll declared ++
            writeAttributes table attributes ++ ['>'] := List.not_mem_append hstart (by decide)
        have hclose : '\r' ∉ '<' :: '/' :: (table.qualified name ++ ['>']) := by simp [htag]
        obtain ⟨r, hr⟩ :=
          exists_writeChildren hwritable ('/' :: (table.qualified name ++ '>' :: rest))
        have hhead : (writeChildren table children ++
            '<' :: '/' :: (table.qualified name ++ '>' :: rest)).head? ≠ some '\n' := by simp [hr]
        have hend := Text.unifyLineEnds_append_of_not_mem hclose rest
        have hinner := unifyLineEnds_writeChildren hwritable hchild
          ('/' :: (table.qualified name ++ '>' :: rest))
        have houter := Text.unifyLineEnds_append_of_not_mem hopen (escapeText text ++
          (writeChildren table children ++ '<' :: '/' :: (table.qualified name ++ '>' :: rest)))
        rw [Text.unifyLineEnds_append hhead, hinner, unifyLineEnds_escapeText] at houter
        rw [show "</".toList = ['<', '/'] from rfl]
        simp only [List.append_assoc, List.cons_append, List.nil_append] at houter hend ⊢
        rw [houter, hend]

end

end Xml

end Unjar
