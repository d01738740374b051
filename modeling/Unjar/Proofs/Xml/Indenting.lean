import Unjar.Proofs.Xml.Moving

/-!
What layout leaves alone.

Laying out a tree puts line ends and indentation where nothing but blanks stood, next to elements
within others, and leaves everything else alone: names, attributes in their order, and all texts
with other characters or in elements without children.  Layout can be exchanged with the other
changes of a tree, and a tree that is read from a layout holds the trees that were laid out.

Main definitions:

* `Unjar.XmlNode.Resembles` — **trees that agree up to blanks next to elements**;
* `Unjar.XmlNode.textsWithin` — the texts within a tree;
* `Unjar.Xml.LaidOut` — a tree read from a layout.

Main results:

* `Unjar.XmlNode.resembles_indentedAt` — **a layout resembles the tree**;
* `Unjar.XmlNode.unified_indentedAt`, `Unjar.XmlNode.withoutNamespaces_indentedAt` — what layout can
  be exchanged with;
* `Unjar.Xml.LaidOut.along` — what is found in a layout.
-/

set_option autoImplicit false

namespace Unjar

namespace XmlNode

section

variable {node : XmlNode} {nodes children : List XmlNode} {t : Text} {level : Nat}

/-! ### Layout exchanged with other changes -/

@[simp] theorem withTail_withTail (tail : Text) :
    (node.withTail t).withTail tail = node.withTail tail := by
  cases node <;> rfl

@[simp] theorem withTail_tail : node.withTail node.tail = node := by
  cases node <;> rfl

@[simp] theorem tail_withTail : (node.withTail t).tail = t := by
  cases node <;> rfl

@[simp] theorem tail_indentedAt : (node.indentedAt level).tail = node.tail := by
  fun_cases indentedAt level node <;> rfl

/-- The text of a tree leaves out what stands behind it. -/
theorem toText_withTail : (node.withTail t).toText = node.toText := by
  cases node <;> rfl

theorem indentedAt_withTail :
    (node.withTail t).indentedAt level = (node.indentedAt level).withTail t := by
  cases node with
  | comment => rfl
  | element name attributes text children tail => cases children <;> rfl

theorem isAllBlank_newLine (level : Nat) : Text.isAllBlank (newLine level) = true := by
  rw [newLine, Text.isAllBlank, List.all_cons, List.all_replicate]
  cases h : 2 * level <;> rfl

theorem unifyLineEnds_newLine (level : Nat) :
    Text.unifyLineEnds (newLine level) = newLine level := by
  refine Text.unifyLineEnds_of_not_mem fun hmem => ?_
  rcases List.mem_cons.mp hmem with heq | hmem
  · cases heq
  · cases List.eq_of_mem_replicate hmem

theorem unifyLineEnds_fillBlank (level : Nat) (t : Text) :
    Text.unifyLineEnds (fillBlank (newLine level) t) =
      fillBlank (newLine level) (Text.unifyLineEnds t) := by
  rw [fillBlank, fillBlank, Text.isAllBlank_unifyLineEnds]
  split
  · exact unifyLineEnds_newLine level
  · rfl

theorem indentedChildren_cons (first : XmlNode) (more : List XmlNode) :
    indentedChildren level (first :: more) =
      (first.indentedAt (level + 1)).withTail
        (fillBlank (newLine (if more.isEmpty then level else level + 1)) first.tail) ::
      indentedChildren level more := by
  rw [indentedChildren, tail_indentedAt]

/-- **Layout can be exchanged** with what changes children one by one and blanks not at all. -/
theorem map_indentedChildren {f : XmlNode → XmlNode} {g : Text → Text} (level : Nat)
    (htail : ∀ node t, f (withTail t node) = (f node).withTail (g t))
    (hfill : ∀ level t, g (fillBlank (newLine level) t) = fillBlank (newLine level) (g t))
    (h : ∀ child ∈ children, ∀ level, f (child.indentedAt level) = (f child).indentedAt level) :
    (indentedChildren level children).map f = indentedChildren level (children.map f) := by
  have hsame : ∀ node, (f node).tail = g node.tail := fun node => by
    have heq := htail node node.tail
    rw [withTail_tail] at heq
    rw [heq, tail_withTail]
  induction children with
  | nil => rfl
  | cons first more ih =>
      rw [List.forall_mem_cons] at h
      rw [List.map_cons, indentedChildren_cons, indentedChildren_cons, List.map_cons, ih h.2, htail,
        h.1, hfill, hsame, List.isEmpty_map]

theorem unified_indentedAt : (node.indentedAt level).unified = node.unified.indentedAt level := by
  induction node using XmlNode.induction generalizing level with
  | comment => rfl
  | element name attributes text children tail ih =>
      have hall := map_indentedChildren level (f := unified) (g := Text.unifyLineEnds)
        (fun _ _ => unified_withTail) unifyLineEnds_fillBlank fun child hchild _ => ih child hchild
      cases children with
      | nil => rfl
      | cons first more =>
          rw [← allUnified_eq_map, ← allUnified_eq_map] at hall
          rw [indentedAt, unified, hall, unifyLineEnds_fillBlank]
          rfl

theorem withoutNamespaces_withTail :
    (node.withTail t).withoutNamespaces = node.withoutNamespaces.withTail t := by
  cases node <;> rfl

theorem withoutNamespaces_indentedAt :
    (node.indentedAt level).withoutNamespaces = node.withoutNamespaces.indentedAt level := by
  induction node using XmlNode.induction generalizing level with
  | comment => rfl
  | element name attributes text children tail ih =>
      have hall := map_indentedChildren level (f := withoutNamespaces) (g := id)
        (fun _ _ => withoutNamespaces_withTail) (fun _ _ => rfl)
        fun child hchild _ => ih child hchild
      cases children with
      | nil => rfl
      | cons first more =>
          rw [← allWithoutNamespaces_eq_map, ← allWithoutNamespaces_eq_map] at hall
          rw [indentedAt, withoutNamespaces, hall]
          rfl

@[simp] theorem withoutNamespaces_withoutNamespaces :
    node.withoutNamespaces.withoutNamespaces = node.withoutNamespaces := by
  induction node using XmlNode.induction with
  | comment => rfl
  | element name attributes text children tail ih =>
      have hall : allWithoutNamespaces (allWithoutNamespaces children) =
          allWithoutNamespaces children := by
        simp only [allWithoutNamespaces_eq_map, List.map_map]
        exact List.map_congr_left ih
      rw [withoutNamespaces, withoutNamespaces, hall]
      rfl

/-- The trees of documents are that once they were laid out. -/
theorem WellFormed.withTail (h : node.WellFormed) (ht : Xml.IsContent t) :
    (node.withTail t).WellFormed := by
  cases h with
  | element hname hattributes htext _ hchildren =>
      exact .element hname hattributes htext ht hchildren

theorem WellFormed.isContent_tail (h : node.WellFormed) : Xml.IsContent node.tail := by
  cases h with
  | element _ _ _ htail _ => exact htail

theorem wellFormed_indentedChildren
    (hchildren : ∀ child ∈ children, child.WellFormed)
    (h : ∀ child ∈ children, ∀ level, (child.indentedAt level).WellFormed) :
    ∀ child ∈ indentedChildren level children, child.WellFormed := by
  induction children with
  | nil => exact fun child hchild => absurd hchild List.not_mem_nil
  | cons first more ih =>
      rw [List.forall_mem_cons] at h hchildren
      rw [indentedChildren_cons, List.forall_mem_cons]
      exact ⟨(h.1 _).withTail (isContent_fillBlank _ hchildren.1.isContent_tail),
        ih hchildren.2 h.2⟩

theorem WellFormed.indentedAt (h : node.WellFormed) (level : Nat) :
    (node.indentedAt level).WellFormed := by
  induction h generalizing level with
  | @element name attributes text tail children hname hattributes htext htail hchildren ih =>
      cases children with
      | nil => exact .element hname hattributes htext htail hchildren
      | cons first more =>
          exact .element hname hattributes (isContent_fillBlank _ htext) htail
            (wellFormed_indentedChildren hchildren ih)

/-! ### Trees that agree -/

/-- **Trees that agree up to blanks next to elements**: the same names and attributes, and the same
texts, but that blanks in front of, between and behind the children of an element may differ. -/
inductive Resembles : XmlNode → XmlNode → Prop
  | element {name : XmlName} {attributes : XmlAttributes} {text text' tail tail' : Text}
      {children children' : List XmlNode}
      (htext : text = text' ∨ children ≠ [] ∧ Text.isAllBlank text ∧ Text.isAllBlank text')
      (htails : List.Forall₂ (fun child child' : XmlNode => child.tail = child'.tail ∨
        Text.isAllBlank child.tail ∧ Text.isAllBlank child'.tail) children children')
      (hchildren : List.Forall₂ Resembles children children') :
      Resembles (.element name attributes text children tail)
        (.element name attributes text' children' tail')

theorem Resembles.withTail {node' : XmlNode} (h : Resembles node node') (t : Text) :
    Resembles node (node'.withTail t) := by
  cases h with
  | element htext htails hchildren => exact .element htext htails hchildren

theorem fillBlank_cases (level : Nat) (t : Text) :
    t = fillBlank (newLine level) t ∨
      Text.isAllBlank t ∧ Text.isAllBlank (fillBlank (newLine level) t) := by
  by_cases hblank : Text.isAllBlank t = true
  · rw [fillBlank, if_pos hblank]
    exact .inr ⟨hblank, isAllBlank_newLine level⟩
  · rw [fillBlank, if_neg hblank]
    exact .inl rfl

/-- Children that were laid out are the same but for their tails, each laid out itself. -/
theorem forall₂_indentedChildren {R : XmlNode → XmlNode → Prop}
    (h : ∀ child ∈ children, ∀ tail, (child.tail = tail ∨
      Text.isAllBlank child.tail ∧ Text.isAllBlank tail) →
        R child ((child.indentedAt (level + 1)).withTail tail)) :
    List.Forall₂ R children (indentedChildren level children) := by
  induction children with
  | nil => exact .nil
  | cons first more ih =>
      rw [List.forall_mem_cons] at h
      rw [indentedChildren_cons]
      exact .cons (h.1 _ (fillBlank_cases _ _)) (ih h.2)

/-- **A layout resembles the tree.** -/
theorem resembles_indentedAt (h : node.WellFormed) (level : Nat) :
    Resembles node (node.indentedAt level) := by
  induction h generalizing level with
  | @element name attributes text tail children _ _ _ _ _ ih =>
      cases children with
      | nil => exact .element (.inl rfl) .nil .nil
      | cons first more =>
          refine .element ?_ (forall₂_indentedChildren fun child hchild tail htail => ?_)
            (forall₂_indentedChildren fun child hchild tail _ => ?_)
          · exact (fillBlank_cases (level + 1) text).imp_right fun hblank => ⟨by simp, hblank⟩
          · rwa [tail_withTail]
          · exact (ih child hchild (level + 1)).withTail tail

/-- The text in front of children that were laid out may be filled. -/
theorem text_indentedAt :
    (node.indentedAt level).text =
      if node.children = [] then node.text else fillBlank (newLine (level + 1)) node.text := by
  cases node with
  | comment => rfl
  | element name attributes text children tail => cases children <;> rfl

/-- The children of an element are laid out, each with some text behind it. -/
theorem forall₂_children_indentedAt (node : XmlNode) (level : Nat) :
    List.Forall₂ (fun child child' => ∃ tail, child' =
      (indentedAt (level + 1) child).withTail tail) node.children
        (node.indentedAt level).children := by
  cases node with
  | comment => exact .nil
  | element name attributes text children tail =>
      cases children with
      | nil => exact .nil
      | cons first more => exact forall₂_indentedChildren fun _ _ tail _ => ⟨tail, rfl⟩

/-! ### Texts without carriage returns -/

mutual

/-- **The texts within a tree**: those in front of its children and behind them. -/
def textsWithin : XmlNode → List Text
  | comment .. => []
  | element _ _ text children _ => text :: allTextsWithin children

/-- The texts within trees and behind them. -/
def allTextsWithin : List XmlNode → List Text
  | [] => []
  | node :: more => textsWithin node ++ node.tail :: allTextsWithin more

end

@[simp] theorem textsWithin_withoutNamespaces :
    node.withoutNamespaces.textsWithin = node.textsWithin := by
  induction node using XmlNode.induction with
  | comment => rfl
  | element name attributes text children tail ih =>
      have hall : allTextsWithin (allWithoutNamespaces children) = allTextsWithin children := by
        induction children with
        | nil => rfl
        | cons first more ihmore =>
            rw [List.forall_mem_cons] at ih
            rw [allWithoutNamespaces, allTextsWithin, allTextsWithin, ih.1, ihmore ih.2,
              tail_withoutNamespaces]
      rw [withoutNamespaces, textsWithin, textsWithin, hall]

/-- Without carriage returns a tree has the line ends of documents. -/
theorem unified_of_textsWithin (h : ∀ t ∈ node.textsWithin, '\r' ∉ t) :
    node.unified.withTail t = node.withTail t := by
  induction node using XmlNode.induction generalizing t with
  | comment => rfl
  | element name attributes text children tail ih =>
      rw [textsWithin, List.forall_mem_cons] at h
      have hall : allUnified children = children := by
        replace h := h.2
        induction children with
        | nil => rfl
        | cons first more ihmore =>
            rw [List.forall_mem_cons] at ih
            rw [allTextsWithin, List.forall_mem_append, List.forall_mem_cons] at h
            obtain ⟨hfirst, htail, hmore⟩ := h
            have hunified : first.unified = first := calc
              first.unified = first.unified.withTail first.unified.tail := withTail_tail.symm
              _ = first.unified.withTail first.tail := by
                rw [unified_tail, Text.unifyLineEnds_of_not_mem htail]
              _ = first := by rw [ih.1 hfirst, withTail_tail]
            rw [allUnified, hunified, ihmore ih.2 hmore]
      rw [unified, withTail, hall, Text.unifyLineEnds_of_not_mem h.1]
      rfl

end

end XmlNode

namespace Xml

open XmlNode

section

variable {node found : XmlNode} {children : List XmlNode} {level : Nat}

/-! ### What is read of a layout -/

/-- **A tree read from a layout**, in which it stands at some level with some text behind it. -/
def LaidOut (level : Nat) (node found : XmlNode) : Prop :=
  ∃ tail, found = (readBack none (node.indentedAt level).unified).withTail tail

@[simp] theorem name?_readBack : (readBack none node).name? = node.name? := by
  cases node with
  | comment => rfl
  | element name =>
      rw [readBack, XmlName.inside_none]
      rfl

theorem LaidOut.name? (h : LaidOut level node found) : found.name? = node.name? := by
  obtain ⟨tail, rfl⟩ := h
  rw [name?_withTail, name?_readBack, name?_unified, name?_indentedAt]

/-- The elements among children are read from their layout. -/
theorem forall₂_readBackAll (level : Nat) (children : List XmlNode) :
    List.Forall₂ (LaidOut (level + 1)) (children.filter isElement)
      (readBackAll none (allUnified (indentedChildren level children))).2 := by
  induction children with
  | nil => exact .nil
  | cons first more ih =>
      rw [indentedChildren_cons, allUnified, readBackAll, unified_withTail, List.filter_cons]
      simp only [isElement, name?_withTail, name?_unified, name?_indentedAt, readBack_withTail]
      obtain hfirst | ⟨name, hfirst⟩ := Option.eq_none_or_eq_some first.name?
      · simpa [hfirst] using ih
      · simpa [hfirst] using ⟨⟨_, rfl⟩, ih⟩

theorem LaidOut.elements (h : LaidOut level node found) :
    List.Forall₂ (LaidOut (level + 1)) (node.children.filter isElement) found.children := by
  obtain ⟨tail, rfl⟩ := h
  cases node with
  | comment => exact .nil
  | element name attributes text children _ =>
      cases children with
      | nil => exact .nil
      | cons first more => exact forall₂_readBackAll level (first :: more)

/-- **Children of a name** are found in a layout. -/
theorem LaidOut.childrenNamed (h : LaidOut level node found) (name : XmlName) :
    List.Forall₂ (LaidOut (level + 1)) (node.childrenNamed name) (found.childrenNamed name) := by
  have hpicked := forall₂_filter (p := fun child => child.name? == some name)
    (q := fun child => child.name? == some name) h.elements
    fun child _ found hfound => by rw [hfound.name?]
  have hsame : (node.children.filter isElement).filter (fun child => child.name? == some name) =
      node.childrenNamed name := by
    rw [List.filter_filter]
    refine List.filter_congr fun child _ => ?_
    cases child <;> simp [isElement, XmlNode.name?]
  rwa [hsame] at hpicked

/-- **What is at the end of a way** is found there in a layout. -/
theorem LaidOut.along (h : LaidOut level node found) (names : List XmlName) :
    List.Forall₂ (LaidOut (level + names.length)) (node.along names) (found.along names) := by
  induction names generalizing level node found with
  | nil => exact .cons h .nil
  | cons name names ih =>
      rw [List.length_cons, Nat.add_comm names.length 1, ← Nat.add_assoc, XmlNode.along,
        XmlNode.along]
      exact List.rel_flatMap (h.childrenNamed name) fun _ _ hchild => ih hchild

/-- A tree of a document is read from its layout as it is, but for what stands behind it. -/
theorem LaidOut.eq_indentedAt (h : LaidOut level node found) (hnode : node.WellFormed) :
    ∃ tail, found = (node.indentedAt level).unified.withTail tail := by
  obtain ⟨tail, rfl⟩ := h
  refine ⟨tail, ?_⟩
  rw [readBack_none (hnode.indentedAt level).unified, withTail_withTail]

end

end Xml

end Unjar
