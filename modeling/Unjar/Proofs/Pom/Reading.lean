import Unjar.Pom.Embedded
import Unjar.Proofs.Pom.Document

/-!
Parts of a descriptor that was rendered.

The parts of a descriptor are written in no namespace and found in that of descriptors.  Where a tree
is read as another, the parts of a name are read as the parts of that name, one by one, and a part
that holds a text is read as that text without the blanks at its ends.

Main definitions:

* `Unjar.XmlNode.HasPlainParts` — the parts of an element are in no namespace;
* `Unjar.PomElement.IsRead` — **a part is read as an element of a descriptor**;
* `Unjar.PomElement.asRead` — a text as it is read.

Main results:

* `Unjar.PomElement.IsRead.parts`, `Unjar.PomElement.IsRead.part?` — the parts of a name;
* `Unjar.PomElement.IsRead.value?` — the text of a part.
-/

set_option autoImplicit false

namespace Unjar

/-- The parts of an element are in no namespace. -/
def XmlNode.HasPlainParts (node : XmlNode) : Prop :=
  ∀ child ∈ node.children, ∀ name, child.name? = some name → name.uri = none

namespace PomElement

open Xml

/-- **A part is read as an element** of a descriptor. -/
structure IsRead (node : XmlNode) (e : PomElement) : Prop where
  uri : e.uri = some pomUri
  node : ReadAs (some pomUri) node e.node

/-- A text as it is read: without the blanks at its ends, unless there is none. -/
def asRead (t : Text) : Option Text :=
  if t.isEmpty then none else some (Text.strip (Text.unifyLineEnds t))

section

variable {node : XmlNode} {e : PomElement} {n : String}

theorem name?_of_readAs {found : XmlNode} (h : ReadAs (some pomUri) node found) :
    found.name? = node.name?.map (XmlName.inside (some pomUri)) := by
  cases h with
  | element => rfl

/-- **The parts of a name** are read as the parts of that name. -/
theorem IsRead.parts (h : IsRead node e) (hplain : node.HasPlainParts) (n : String) :
    List.Forall₂ IsRead (node.childrenNamed (PomNode.name n)) (e.parts n) := by
  obtain ⟨found, uri⟩ := e
  obtain ⟨rfl, hread⟩ := h
  rw [PomElement.parts, List.forall₂_map_right_iff]
  cases hread with
  | @element name attributes attributes' text text' tail tail' children children' htext hchildren =>
      have hpicked := forall₂_filter (p := fun child => child.name? == some (PomNode.name n))
        (q := fun child => child.name? == some ⟨some pomUri, n.toList⟩) hchildren ?_
      · rw [List.filter_filter] at hpicked
        have hsame : children.filter (fun child =>
            (child.name? == some (PomNode.name n)) && child.isElement) =
            children.filter fun child => child.name? == some (PomNode.name n) := by
          refine List.filter_congr fun child _ => ?_
          cases child <;> simp [XmlNode.isElement, XmlNode.name?]
        rw [hsame] at hpicked
        exact hpicked.imp fun _ _ hread => ⟨rfl, hread⟩
      · -- a name in no namespace is found in that of descriptors, and no other is
        intro child hchild found hread
        rw [name?_of_readAs hread]
        cases hname : child.name? with
        | none => rfl
        | some given =>
            obtain ⟨uri, localName⟩ := given
            obtain rfl : uri = none := hplain child (List.mem_filter.mp hchild).1 _ hname
            simp [PomNode.name, XmlName.plain, XmlName.inside]

/-- **The first part of a name**, if there is one. -/
theorem IsRead.part? (h : IsRead node e) (hplain : node.HasPlainParts) (n : String) :
    Option.Rel IsRead (node.child? (PomNode.name n)) (e.part? n) := by
  have hparts := h.parts hplain n
  have hhead : e.part? n = (e.parts n).head? := by
    rw [PomElement.part?, PomElement.parts, List.head?_map, XmlNode.child?,
      XmlNode.childrenNamed, List.head?_filter]
  rw [hhead, XmlNode.child?, ← List.head?_filter]
  change Option.Rel IsRead (node.childrenNamed (PomNode.name n)).head? _
  generalize node.childrenNamed (PomNode.name n) = parts, e.parts n = found at hparts
  cases hparts with
  | nil => exact .none
  | cons hfirst _ => exact .some hfirst

/-- A part that holds a text. -/
theorem IsRead.text? {t : Text} (h : IsRead (PomNode.leaf n t) e) : e.text? = asRead t := by
  obtain ⟨found, uri⟩ := e
  obtain ⟨rfl, hread⟩ := h
  generalize hleaf : PomNode.leaf n t = leaf at hread
  cases hread with
  | element htext _ =>
      cases hleaf
      rw [PomElement.text?, asRead]
      simp only [XmlNode.text, htext, Text.isEmpty_unifyLineEnds]

/-- **The text of a part** that holds a text. -/
theorem IsRead.value? (h : IsRead node e) (hplain : node.HasPlainParts) {n : String}
    {t : Option Text} (hchild : node.child? (PomNode.name n) = t.map (PomNode.leaf n)) :
    e.value? n = t.bind asRead := by
  have hpart := h.part? hplain n
  rw [PomElement.value?]
  rw [hchild] at hpart
  generalize e.part? n = part at hpart ⊢
  cases t with
  | none =>
      cases hpart
      rfl
  | some t =>
      cases hpart with
      | some hread => exact hread.text?

end

end PomElement

end Unjar
