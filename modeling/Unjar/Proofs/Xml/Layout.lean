import Unjar.Proofs.Xml.RoundTrip

/-!
Trees read back from their layout.

A tree laid out in lines has blanks around its elements.  They change no name and no text of an
element without children, so what is read from the layout is the tree up to the texts between
elements.

Main definitions:

* `Unjar.XmlNode.isElement` — an element, not a comment;
* `Unjar.XmlNode.HasLeaf` — a text stands in a tree, in an element without children;
* `Unjar.Xml.ReadAs` — **a tree is read as another**, but for attributes, comments and the texts
  between elements.

Main results:

* `Unjar.XmlNode.Presentable.indentedAt`, `Unjar.XmlNode.HasLeaf.indentedAt`,
  `Unjar.Xml.nodeUris_indentedAt` — what layout keeps;
* `Unjar.XmlNode.HasLeaf.isContent` — what is written of a leaf may stand in a document only if its
  text may;
* `Unjar.Xml.readAs_indentedAt` — **a tree that was laid out is read as the tree**.
-/

set_option autoImplicit false

namespace Unjar

namespace XmlNode

/-- Whether a node is an element. -/
def isElement (node : XmlNode) : Bool := node.name?.isSome

/-- **Induction on trees**: what holds of an element if it holds of its children holds of all. -/
theorem induction {motive : XmlNode → Prop}
    (comment : ∀ content tail, motive (.comment content tail))
    (element : ∀ name attributes text children tail, (∀ child ∈ children, motive child) →
      motive (.element name attributes text children tail)) (node : XmlNode) : motive node := by
  refine @XmlNode.rec motive (fun nodes => ∀ child ∈ nodes, motive child) comment
    (fun name attributes text children tail ih => ?_) ?_ ?_ node
  · exact element name attributes text children tail ih
  · exact fun child hchild => absurd hchild List.not_mem_nil
  · exact fun child children hchild hchildren => List.forall_mem_cons.mpr ⟨hchild, hchildren⟩

section

variable {node : XmlNode} {t : Text} {level : Nat}

@[simp] theorem name?_withTail : (node.withTail t).name? = node.name? := by
  cases node <;> rfl

@[simp] theorem name?_indentedAt : (node.indentedAt level).name? = node.name? := by
  fun_cases indentedAt level node <;> rfl

theorem unified_withTail :
    (node.withTail t).unified = node.unified.withTail (Text.unifyLineEnds t) := by
  cases node <;> rfl

theorem isContent_newLine (level : Nat) : Xml.IsContent (newLine level) := by
  intro c hc
  rcases List.mem_cons.mp hc with rfl | hc
  · decide
  · rw [List.eq_of_mem_replicate hc]
    decide

theorem isContent_fillBlank (level : Nat) (ht : Xml.IsContent t) :
    Xml.IsContent (fillBlank (newLine level) t) := by
  unfold fillBlank
  split
  · exact isContent_newLine level
  · exact ht

theorem Presentable.withTail (h : node.Presentable) (ht : Xml.IsContent t) :
    (node.withTail t).Presentable := by
  cases h with
  | comment hcontent _ => exact .comment hcontent ht
  | element hname hattributes hnames htext _ hchildren =>
      exact .element hname hattributes hnames htext ht hchildren

theorem Presentable.isContent_tail (h : node.Presentable) : Xml.IsContent node.tail := by
  cases h with
  | comment _ htail => exact htail
  | element _ _ _ _ htail _ => exact htail

/-- Children laid out can be written if each of them can. -/
theorem presentable_indentedChildren {children : List XmlNode}
    (h : ∀ child ∈ children, ∀ level, (child.indentedAt level).Presentable) :
    ∀ child ∈ indentedChildren level children, child.Presentable := by
  induction children with
  | nil => exact fun child hchild => absurd hchild List.not_mem_nil
  | cons first more ih =>
      rw [List.forall_mem_cons] at h
      rw [indentedChildren, List.forall_mem_cons]
      refine ⟨(h.1 _).withTail (isContent_fillBlank _ (h.1 _).isContent_tail), ih h.2⟩

/-- **Layout keeps** that a tree can be written. -/
theorem Presentable.indentedAt (h : node.Presentable) (level : Nat) :
    (node.indentedAt level).Presentable := by
  induction h generalizing level with
  | comment hcontent htail => exact .comment hcontent htail
  | @element name attributes text tail children hname hattributes hnames htext htail hchildren ih =>
      cases children with
      | nil => exact .element hname hattributes hnames htext htail hchildren
      | cons first more =>
          exact .element hname hattributes hnames (isContent_fillBlank _ htext) htail
            (presentable_indentedChildren ih)

/-! ### Leaves -/

/-- **A text stands in a tree**, in an element without children. -/
inductive HasLeaf (t : Text) : XmlNode → Prop
  | leaf {name : XmlName} {attributes : XmlAttributes} {tail : Text} :
      HasLeaf t (.element name attributes t [] tail)
  | within {name : XmlName} {attributes : XmlAttributes} {text tail : Text}
      {children : List XmlNode} {child : XmlNode} (hchild : child ∈ children)
      (h : HasLeaf t child) : HasLeaf t (.element name attributes text children tail)

theorem HasLeaf.withTail (h : HasLeaf t node) (tail : Text) : HasLeaf t (node.withTail tail) := by
  cases h with
  | leaf => exact .leaf
  | within hchild h => exact .within hchild h

/-- Among children laid out is each of them, laid out and with a tail. -/
theorem exists_mem_indentedChildren {child : XmlNode} {children : List XmlNode}
    (h : child ∈ children) (level : Nat) :
    ∃ tail, (child.indentedAt (level + 1)).withTail tail ∈ indentedChildren level children := by
  induction h with
  | head => exact ⟨_, List.mem_cons_self⟩
  | tail _ _ ih =>
      obtain ⟨tail, htail⟩ := ih
      exact ⟨tail, List.mem_cons_of_mem _ htail⟩

/-- **Layout keeps** the texts of leaves. -/
theorem HasLeaf.indentedAt (h : HasLeaf t node) (level : Nat) :
    HasLeaf t (node.indentedAt level) := by
  induction h generalizing level with
  | leaf => exact .leaf
  | @within name attributes text tail children child hchild _ ih =>
      cases children with
      | nil => exact absurd hchild List.not_mem_nil
      | cons first more =>
          obtain ⟨tail', hmem⟩ := exists_mem_indentedChildren hchild level
          exact .within hmem ((ih _).withTail tail')

/-- What stands for a character may stand in a document only if the character may. -/
theorem isContent_of_escapeText (h : Xml.IsContent (Xml.escapeText t)) : Xml.IsContent t := by
  intro c hc
  have hescape : ∀ c' ∈ Xml.escapeTextCharacter c, Xml.isCharacter c' = true :=
    fun c' hc' => h c' (List.mem_flatMap.mpr ⟨c, hc, hc'⟩)
  unfold Xml.escapeTextCharacter at hescape
  split at hescape
  · decide
  · decide
  · decide
  · exact hescape c List.mem_cons_self

/-- What is written of a child is a part of what is written of its siblings. -/
theorem infix_writeChildren (table : Xml.Prefixes) {child : XmlNode} {children : List XmlNode}
    (h : child ∈ children) :
    Xml.writeNode table [] child <:+: Xml.writeChildren table children := by
  induction h with
  | head more =>
      rw [Xml.writeChildren, List.append_assoc]
      exact (List.prefix_append _ _).isInfix
  | tail first _ ih =>
      rw [Xml.writeChildren]
      exact ih.trans (List.suffix_append _ _).isInfix

/-- **What is written of a tree** may stand in a document only if the texts of its leaves may. -/
theorem HasLeaf.isContent {table : Xml.Prefixes} {declarations : Text} (h : HasLeaf t node)
    (hwritten : Xml.IsContent (Xml.writeNode table declarations node)) : Xml.IsContent t := by
  induction h generalizing declarations with
  | leaf =>
      rw [Xml.writeNode] at hwritten
      split at hwritten
      · next hempty =>
        obtain rfl : t = [] := by simpa using hempty
        exact Xml.isContent_nil
      · simp only [Xml.isContent_append, Xml.isContent_cons] at hwritten
        exact isContent_of_escapeText hwritten.1.1.1.1.2.2
  | @within name attributes text tail children child hchild _ ih =>
      rw [Xml.writeNode] at hwritten
      split at hwritten
      · next hempty =>
        obtain rfl : children = [] := by
          simp only [Bool.and_eq_true, List.isEmpty_iff] at hempty
          exact hempty.2
        exact absurd hchild List.not_mem_nil
      · simp only [Xml.isContent_append, Xml.isContent_cons] at hwritten
        exact ih (hwritten.1.1.1.2.subset (infix_writeChildren table hchild).subset)

end

end XmlNode

namespace Xml

section

variable {node found : XmlNode} {children : List XmlNode} {t : Text} {level : Nat}

/-! ### Namespaces of what is laid out -/

@[simp] theorem nodeUris_withTail : nodeUris (node.withTail t) = nodeUris node := by
  cases node <;> rfl

/-- **Layout changes no name.** -/
theorem nodeUris_indentedAt (node : XmlNode) (level : Nat) :
    nodeUris (node.indentedAt level) = nodeUris node := by
  induction node using XmlNode.induction generalizing level with
  | comment => rfl
  | element name attributes text children tail ih =>
      have hall : allUris (XmlNode.indentedChildren level children) = allUris children := by
        induction children with
        | nil => rfl
        | cons first more ihmore =>
            rw [List.forall_mem_cons] at ih
            rw [XmlNode.indentedChildren, allUris, allUris, nodeUris_withTail, ih.1,
              ihmore ih.2]
      cases children with
      | nil => rfl
      | cons first more => rw [XmlNode.indentedAt, nodeUris, nodeUris, hall]

/-! ### What is read of a layout -/

/-- **A tree is read as another** where elements without a prefix are in the outer namespace.  The
elements are the same, and those without children have the same texts with the line ends of
documents. -/
inductive ReadAs (outer : Option Text) : XmlNode → XmlNode → Prop
  | element {name : XmlName} {attributes attributes' : XmlAttributes} {text text' tail tail' : Text}
      {children children' : List XmlNode} (htext : children = [] → text' = Text.unifyLineEnds text)
      (hchildren : List.Forall₂ (ReadAs outer) (children.filter XmlNode.isElement) children') :
      ReadAs outer (.element name attributes text children tail)
        (.element (name.inside outer) attributes' text' children' tail')

variable {outer : Option Text}

theorem ReadAs.withTail (h : ReadAs outer node found) : ReadAs outer node (found.withTail t) := by
  cases h with
  | element htext hchildren => exact .element htext hchildren

@[simp] theorem readBack_withTail : readBack outer (node.withTail t) = readBack outer node := by
  cases node <;> rfl

/-- Children laid out are read as the elements among them, if each of those is. -/
theorem readAs_indentedChildren (h : ∀ child ∈ children, child.name? ≠ none → ∀ level,
      ReadAs outer child (readBack outer (child.indentedAt level).unified)) :
    List.Forall₂ (ReadAs outer) (children.filter XmlNode.isElement)
      (readBackAll outer (XmlNode.allUnified (XmlNode.indentedChildren level children))).2 := by
  induction children with
  | nil => exact .nil
  | cons first more ih =>
      rw [List.forall_mem_cons] at h
      rw [XmlNode.indentedChildren, XmlNode.allUnified, readBackAll, XmlNode.unified_withTail,
        List.filter_cons]
      simp only [XmlNode.isElement, XmlNode.name?_withTail, XmlNode.name?_unified,
        XmlNode.name?_indentedAt, readBack_withTail]
      obtain hfirst | ⟨name, hfirst⟩ := Option.eq_none_or_eq_some first.name?
      · simpa [hfirst] using ih h.2
      · simpa [hfirst] using ⟨(h.1 (by simp [hfirst]) _).withTail, ih h.2⟩

/-- **A tree that was laid out is read as the tree.** -/
theorem readAs_indentedAt (hnode : node.name? ≠ none) (level : Nat) :
    ReadAs outer node (readBack outer (node.indentedAt level).unified) := by
  induction node using XmlNode.induction generalizing level with
  | comment => exact absurd rfl hnode
  | element name attributes text children tail ih =>
      cases children with
      | nil => exact .element (fun _ => List.append_nil _) .nil
      | cons first more =>
          refine .element (fun hnil => by cases hnil) ?_
          exact readAs_indentedChildren fun child hchild hname level => ih child hchild hname level

end

end Xml

end Unjar
