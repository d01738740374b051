import Unjar.Proofs.Xml.Layout

/-!
Trees moved into a namespace.

A tree whose elements are in no namespace is moved into one element by element; its attributes stay
where they are.  Reading does the same where the namespace is declared for elements without a
prefix, so that it makes no difference whether a tree is moved before it is written or when it is
read.  And looking for children finds the same ones under the names of the namespace.

Main definitions:

* `Unjar.XmlNode.inside` — **a tree moved into a namespace**;
* `Unjar.XmlNode.IsPlain` — trees in no namespace.

Main results:

* `Unjar.XmlNode.IsPlain.childrenNamed_inside`, `Unjar.XmlNode.IsPlain.child?_inside`,
  `Unjar.XmlNode.IsPlain.along_inside` — looking for children of a tree that was moved;
* `Unjar.Xml.readBack_inside`, `Unjar.Xml.inside_readBack` — moving and reading.
-/

set_option autoImplicit false

namespace Unjar

namespace XmlNode

mutual

/-- **A tree moved into a namespace**, as far as its elements are in none. -/
def inside (outer : Option Text) : XmlNode → XmlNode
  | comment content tail => comment content tail
  | element name attributes text children tail =>
    element (name.inside outer) attributes text (allInside outer children) tail

/-- Trees moved into a namespace. -/
def allInside (outer : Option Text) : List XmlNode → List XmlNode
  | [] => []
  | node :: more => inside outer node :: allInside outer more

end

section

variable {outer : Option Text} {node : XmlNode} {nodes : List XmlNode} {t : Text}

theorem allInside_eq_map : allInside outer nodes = nodes.map (inside outer) := by
  induction nodes with
  | nil => rfl
  | cons node nodes ih => rw [allInside, ih, List.map_cons]

@[simp] theorem name?_inside :
    (node.inside outer).name? = node.name?.map (XmlName.inside outer) := by
  cases node <;> rfl

@[simp] theorem text_inside : (node.inside outer).text = node.text := by
  cases node <;> rfl

@[simp] theorem tail_inside : (node.inside outer).tail = node.tail := by
  cases node <;> rfl

@[simp] theorem children_inside :
    (node.inside outer).children = node.children.map (inside outer) := by
  cases node with
  | comment => rfl
  | element => exact allInside_eq_map

theorem withTail_inside : (node.inside outer).withTail t = (node.withTail t).inside outer := by
  cases node <;> rfl

theorem allWithoutNamespaces_eq_map : allWithoutNamespaces nodes = nodes.map withoutNamespaces := by
  induction nodes with
  | nil => rfl
  | cons node nodes ih => rw [allWithoutNamespaces, ih, List.map_cons]

@[simp] theorem name?_withoutNamespaces :
    node.withoutNamespaces.name? = node.name?.map fun name => .plain name.localName := by
  cases node <;> rfl

@[simp] theorem text_withoutNamespaces : node.withoutNamespaces.text = node.text := by
  cases node <;> rfl

@[simp] theorem tail_withoutNamespaces : node.withoutNamespaces.tail = node.tail := by
  cases node <;> rfl

@[simp] theorem children_withoutNamespaces :
    node.withoutNamespaces.children = node.children.map withoutNamespaces := by
  cases node with
  | comment => rfl
  | element => exact allWithoutNamespaces_eq_map

/-- What namespaces a tree had is not seen once it is without them. -/
@[simp] theorem withoutNamespaces_inside :
    (node.inside outer).withoutNamespaces = node.withoutNamespaces := by
  induction node using XmlNode.induction with
  | comment => rfl
  | element name attributes text children tail ih =>
      have hall : allWithoutNamespaces (allInside outer children) =
          allWithoutNamespaces children := by
        rw [allInside_eq_map, allWithoutNamespaces_eq_map, allWithoutNamespaces_eq_map,
          List.map_map]
        exact List.map_congr_left ih
      rw [inside, withoutNamespaces, withoutNamespaces, hall]
      rfl

theorem unified_inside : (node.inside outer).unified = node.unified.inside outer := by
  induction node using XmlNode.induction with
  | comment => rfl
  | element name attributes text children tail ih =>
      have hall : allUnified (allInside outer children) =
          allInside outer (allUnified children) := by
        rw [allInside_eq_map, allUnified_eq_map, allUnified_eq_map, allInside_eq_map, List.map_map,
          List.map_map]
        exact List.map_congr_left ih
      rw [inside, unified, unified, inside, hall]

/-- **A tree that was moved** can be written if the tree can. -/
theorem Presentable.inside {uri : Text} (h : node.Presentable) (huri : Xml.IsNamespace uri) :
    (node.inside (some uri)).Presentable := by
  induction h with
  | comment hcontent htail => exact .comment hcontent htail
  | element hname hattributes hnames htext htail _ ih =>
      refine .element ?_ hattributes hnames htext htail ?_
      · cases hname with
        | plain hname => exact .within huri hname
        | within hother hname => exact .within hother hname
      · rw [allInside_eq_map, List.forall_mem_map]
        exact ih

/-! ### Trees without namespaces -/

theorem WellFormed.withoutNamespaces (h : node.WellFormed) : node.withoutNamespaces.WellFormed := by
  induction h with
  | element hname hattributes htext htail _ ih =>
      refine .element (.plain hname.isName) hattributes htext htail ?_
      rw [allWithoutNamespaces_eq_map, List.forall_mem_map]
      exact ih

/-- The attributes keep their names. -/
theorem WellFormed.attributeNames_withoutNamespaces (h : node.WellFormed) :
    node.withoutNamespaces.attributeNames = node.attributeNames := by
  induction h with
  | element _ _ _ _ _ ih =>
      rw [XmlNode.withoutNamespaces, attributeNames, attributeNames, allWithoutNamespaces_eq_map,
        allAttributeNames_eq_flatMap, allAttributeNames_eq_flatMap, List.flatMap_map]
      congr 1
      exact List.flatMap_congr ih

/-- **A tree in no namespace**: neither an element nor an attribute is in one. -/
def IsPlain (node : XmlNode) : Prop := Xml.nodeUris node = []

instance : Decidable node.IsPlain := inferInstanceAs (Decidable (_ = _))

theorem isPlain_element {name : XmlName} {attributes : XmlAttributes} {tail : Text} :
    (element name attributes t nodes tail).IsPlain ↔
      name.uri = none ∧ (∀ a ∈ attributes, a.1.uri = none) ∧ ∀ child ∈ nodes, child.IsPlain := by
  rw [IsPlain, Xml.nodeUris, List.append_eq_nil_iff, Xml.tagUris, List.filterMap_eq_nil_iff,
    List.forall_mem_cons, List.forall_mem_map, Xml.allUris_eq_flatMap, List.flatMap_eq_nil_iff,
    and_assoc]
  rfl

/-- A tree without namespaces is in none if its attributes are in none. -/
theorem isPlain_withoutNamespaces (h : ∀ name ∈ node.attributeNames, name.uri = none) :
    node.withoutNamespaces.IsPlain := by
  induction node using XmlNode.induction with
  | comment => rfl
  | element name attributes text children tail ih =>
      rw [attributeNames, List.forall_mem_append, List.forall_mem_map,
        allAttributeNames_eq_flatMap] at h
      rw [XmlNode.withoutNamespaces, isPlain_element, allWithoutNamespaces_eq_map,
        List.forall_mem_map]
      refine ⟨rfl, h.1, fun child hchild => ih child hchild fun name hname => h.2 name ?_⟩
      exact List.mem_flatMap.mpr ⟨child, hchild, hname⟩

/-- Attributes in no namespace have names. -/
theorem WellFormed.namesAttributes (h : node.WellFormed)
    (hplain : ∀ name ∈ node.attributeNames, name.uri = none) : node.NamesAttributes := by
  induction h with
  | @element name attributes text tail children _ hattributes _ _ _ ih =>
      rw [attributeNames, List.forall_mem_append, List.forall_mem_map,
        allAttributeNames_eq_flatMap] at hplain
      rw [NamesAttributes, attributeNames, List.forall_mem_append, List.forall_mem_map,
        allAttributeNames_eq_flatMap]
      refine ⟨fun a ha => ?_, fun name hname => ?_⟩
      · have huri := hplain.1 a ha
        generalize a.1 = given, hattributes.names a ha = hgiven at huri
        cases hgiven with
        | plain hname _ => exact hname
        | within => cases huri
      · obtain ⟨child, hchild, hname⟩ := List.mem_flatMap.mp hname
        refine ih child hchild (fun other hother => hplain.2 other ?_) name hname
        exact List.mem_flatMap.mpr ⟨child, hchild, hother⟩

theorem IsPlain.children (h : node.IsPlain) : ∀ child ∈ node.children, child.IsPlain := by
  cases node with
  | comment => exact fun child hchild => absurd hchild List.not_mem_nil
  | element => exact (isPlain_element.mp h).2.2

/-- The names of elements in no namespace say which local names they have, moved or not. -/
theorem IsPlain.name?_inside_beq (h : node.IsPlain) (t : Text) :
    ((node.inside outer).name? == some ⟨outer, t⟩) = (node.name? == some (.plain t)) := by
  cases node with
  | comment => rfl
  | element name =>
      obtain ⟨uri, localName⟩ := name
      obtain rfl : uri = none := (isPlain_element.mp h).1
      rw [name?_inside]
      by_cases heq : localName = t
      · simp [name?, XmlName.inside, XmlName.plain, heq]
      · simp [name?, XmlName.inside, XmlName.plain, heq]

/-! ### Looking for children -/

theorem WellFormed.of_mem_children (h : node.WellFormed) {child : XmlNode}
    (hchild : child ∈ node.children) : child.WellFormed := by
  cases h with
  | element _ _ _ _ hchildren => exact hchildren child hchild

theorem WellFormed.of_mem_along (h : node.WellFormed) {names : List XmlName} {part : XmlNode}
    (hpart : part ∈ node.along names) : part.WellFormed := by
  induction names generalizing node with
  | nil =>
      rw [List.mem_singleton.mp hpart]
      exact h
  | cons name names ih =>
      obtain ⟨child, hchild, hpart⟩ := List.mem_flatMap.mp hpart
      exact ih (h.of_mem_children (List.mem_filter.mp hchild).1) hpart

/-- **Children are found again** once they were moved. -/
theorem IsPlain.childrenNamed_inside (h : node.IsPlain) (t : Text) :
    (node.inside outer).childrenNamed ⟨outer, t⟩ =
      (node.childrenNamed (.plain t)).map (XmlNode.inside outer) := by
  rw [childrenNamed, children_inside, List.filter_map, childrenNamed]
  congr 1
  exact List.filter_congr fun child hchild => (h.children child hchild).name?_inside_beq t

theorem IsPlain.child?_inside (h : node.IsPlain) (t : Text) :
    (node.inside outer).child? ⟨outer, t⟩ =
      (node.child? (.plain t)).map (XmlNode.inside outer) := by
  rw [child?, child?, ← List.head?_filter, ← List.head?_filter, ← List.head?_map]
  exact congrArg List.head? (h.childrenNamed_inside t)

theorem mem_of_mem_childrenNamed {child : XmlNode} {name : XmlName}
    (h : child ∈ node.childrenNamed name) : child ∈ node.children := (List.mem_filter.mp h).1

/-- **What is at the end of a way** is found there again. -/
theorem IsPlain.along_inside (h : node.IsPlain) (names : List Text) :
    (node.inside outer).along (names.map fun t => ⟨outer, t⟩) =
      (node.along (names.map .plain)).map (XmlNode.inside outer) := by
  induction names generalizing node with
  | nil => rfl
  | cons t names ih =>
      rw [List.map_cons, List.map_cons, along, along, h.childrenNamed_inside, List.flatMap_map,
        List.map_flatMap]
      refine List.flatMap_congr fun child hchild => ?_
      exact ih (h.children child (mem_of_mem_childrenNamed hchild))

theorem IsPlain.of_mem_along {names : List XmlName} {found : XmlNode} (h : node.IsPlain)
    (hfound : found ∈ node.along names) : found.IsPlain := by
  induction names generalizing node with
  | nil => exact List.mem_singleton.mp hfound ▸ h
  | cons name names ih =>
      obtain ⟨child, hchild, hfound⟩ := List.mem_flatMap.mp hfound
      exact ih (h.children child (mem_of_mem_childrenNamed hchild)) hfound

theorem IsPlain.withTail (h : node.IsPlain) (t : Text) : (node.withTail t).IsPlain := by
  rwa [IsPlain, Xml.nodeUris_withTail]

theorem IsPlain.unified (h : node.IsPlain) : node.unified.IsPlain := by
  induction node using XmlNode.induction with
  | comment => rfl
  | element name attributes text children tail ih =>
      rw [isPlain_element] at h
      rw [XmlNode.unified, isPlain_element, allUnified_eq_map, List.forall_mem_map]
      exact ⟨h.1, h.2.1, fun child hchild => ih child hchild (h.2.2 child hchild)⟩

/-- A tree that was moved names no other namespace. -/
theorem IsPlain.of_mem_nodeUris_inside (h : node.IsPlain) {uri : Text}
    (huri : uri ∈ Xml.nodeUris (node.inside outer)) : outer = some uri := by
  induction node using XmlNode.induction with
  | comment => exact absurd huri List.not_mem_nil
  | element name attributes text children tail ih =>
      obtain ⟨hname, hattributes, hchildren⟩ := isPlain_element.mp h
      rw [inside, Xml.nodeUris, List.mem_append, Xml.mem_tagUris, allInside_eq_map,
        Xml.allUris_eq_flatMap, List.flatMap_map, List.mem_flatMap] at huri
      rcases huri with (huri | ⟨a, ha, huri⟩) | ⟨child, hchild, huri⟩
      · rwa [XmlName.inside, hname] at huri
      · rw [hattributes a ha] at huri
        cases huri
      · exact ih child hchild (hchildren child hchild) huri

end

end XmlNode

namespace Xml

section

variable {outer : Option Text} {node : XmlNode} {children : List XmlNode}

/-! ### Reading -/

/-- Children are read back where they are moved to if each of them is. -/
theorem readBackAll_inside
    (h : ∀ child ∈ children, readBack none (child.inside outer) = readBack outer child) :
    readBackAll none (XmlNode.allInside outer children) = readBackAll outer children := by
  induction children with
  | nil => rfl
  | cons child children ih =>
      rw [List.forall_mem_cons] at h
      rw [XmlNode.allInside, readBackAll, readBackAll, ih h.2, h.1]
      simp

/-- **A tree that was moved before it was written** is read like the tree in its place. -/
theorem readBack_inside : readBack none (node.inside outer) = readBack outer node := by
  induction node using XmlNode.induction with
  | comment => rfl
  | element name attributes text children tail ih =>
      rw [XmlNode.inside, readBack, readBack, readBackAll_inside ih, XmlName.inside_none]

theorem inside_readBackAll
    (h : ∀ child ∈ children, readBack outer child = (readBack none child).inside outer) :
    readBackAll outer children =
      ((readBackAll none children).1, XmlNode.allInside outer (readBackAll none children).2) := by
  induction children with
  | nil => rfl
  | cons child children ih =>
      rw [List.forall_mem_cons] at h
      rw [readBackAll, readBackAll, ih h.2, h.1, XmlNode.withTail_inside]
      split <;> rfl

/-- **What is read in a namespace** is what is read in none, moved. -/
theorem inside_readBack : readBack outer node = (readBack none node).inside outer := by
  induction node using XmlNode.induction with
  | comment => rfl
  | element name attributes text children tail ih =>
      rw [readBack, readBack, inside_readBackAll ih, XmlName.inside_none]
      rfl

theorem isPlain_readBackAll (h : ∀ child ∈ children, (readBack outer child).IsPlain) :
    ∀ child ∈ (readBackAll outer children).2, child.IsPlain := by
  induction children with
  | nil => exact fun _ hchild => absurd hchild List.not_mem_nil
  | cons child children ih =>
      rw [List.forall_mem_cons] at h
      rw [readBackAll]
      split
      · exact ih h.2
      · rw [List.forall_mem_cons]
        exact ⟨h.1.withTail _, ih h.2⟩

/-- **A tree in no namespace is read as one.** -/
theorem isPlain_readBack (h : node.IsPlain) : (readBack none node).IsPlain := by
  induction node using XmlNode.induction with
  | comment => rfl
  | element name attributes text children tail ih =>
      rw [XmlNode.isPlain_element] at h
      rw [readBack, XmlNode.isPlain_element, XmlName.inside_none]
      refine ⟨h.1, h.2.1, isPlain_readBackAll fun child hchild => ?_⟩
      exact ih child hchild (h.2.2 child hchild)

end

end Xml

end Unjar
