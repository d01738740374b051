import Unjar.Text

/-!
Trees of elements.

An element has a name, attributes in order, a text up to its first child, and children; every child
carries the text between it and what follows.  So text has one place only, and two trees that are
written alike are equal.

Main definitions:

* `Unjar.XmlName`, `Unjar.XmlName.ofText?` — names in namespaces, and how they are spelt in one
  text;
* `Unjar.XmlNode` — elements and comments;
* `Unjar.XmlNode.child?`, `Unjar.XmlNode.childrenNamed`, `Unjar.XmlNode.along` — looking for children;
* `Unjar.XmlNode.withoutNamespaces` — a tree whose elements are in no namespace;
* `Unjar.XmlNode.indented` — a tree laid out in lines.
-/

set_option autoImplicit false

namespace Unjar

/-- **A name**, in a namespace or in none. -/
structure XmlName where
  /-- The identifier of the namespace. -/
  uri : Option Text
  /-- The name within it. -/
  localName : Text
deriving DecidableEq, Repr

namespace XmlName

/-- A name in no namespace. -/
def plain (name : Text) : XmlName := ⟨none, name⟩

/-- The name that a text spells: a text that begins with an opening brace holds the namespace up to
its last closing brace, of which there has to be one. -/
def ofText? : Text → Option XmlName
  | '\x7b' :: r => (cutAtLast '\x7d' r).map fun (uri, name) => ⟨some uri, name⟩
  | name => some (plain name)

end XmlName

/-- The attributes of an element, in order. -/
abbrev XmlAttributes := List (XmlName × Text)

/-- **A node of a tree**, with the text behind it. -/
inductive XmlNode where
  | comment (content tail : Text)
  /-- An element; its text is what stands before its first child. -/
  | element (name : XmlName) (attributes : XmlAttributes) (text : Text) (children : List XmlNode)
      (tail : Text)

namespace XmlNode

/-! ### Parts -/

/-- The name; a comment has none. -/
def name? : XmlNode → Option XmlName
  | comment .. => none
  | element name .. => some name

/-- The text before the first child. -/
def text : XmlNode → Text
  | comment .. => []
  | element _ _ text _ _ => text

def children : XmlNode → List XmlNode
  | comment .. => []
  | element _ _ _ children _ => children

/-- The text behind a node. -/
def tail : XmlNode → Text
  | comment _ tail => tail
  | element _ _ _ _ tail => tail

/-- A node with another text behind it. -/
def withTail (tail : Text) : XmlNode → XmlNode
  | comment content _ => comment content tail
  | element name attributes text children _ => element name attributes text children tail

/-- An element without attributes that holds a text. -/
def leaf (name : XmlName) (text : Text) : XmlNode := element name [] text [] []

/-- An element without attributes and text that holds others. -/
def branch (name : XmlName) (children : List XmlNode) : XmlNode := element name [] [] children []

/-! ### Looking for children -/

def childrenNamed (node : XmlNode) (name : XmlName) : List XmlNode :=
  node.children.filter fun child => child.name? == some name

/-- The first child of a name. -/
def child? (node : XmlNode) (name : XmlName) : Option XmlNode :=
  node.children.find? fun child => child.name? == some name

/-- The nodes at the end of all ways of the given names. -/
def along (node : XmlNode) : List XmlName → List XmlNode
  | [] => [node]
  | name :: more => (node.childrenNamed name).flatMap fun child => child.along more

/-! ### Namespaces -/

mutual

/-- A tree whose elements are in no namespace; attributes keep theirs. -/
def withoutNamespaces : XmlNode → XmlNode
  | comment content tail => comment content tail
  | element name attributes text children tail =>
    element (.plain name.localName) attributes text (allWithoutNamespaces children) tail

/-- Trees whose elements are in no namespace. -/
def allWithoutNamespaces : List XmlNode → List XmlNode
  | [] => []
  | node :: more => withoutNamespaces node :: allWithoutNamespaces more

end

/-! ### Layout -/

/-- A text, unless it is blank, which gives way to another. -/
def fillBlank (filling t : Text) : Text := if Text.isAllBlank t then filling else t

/-- A line end and the indentation of a level. -/
def newLine (level : Nat) : Text := '\n' :: List.replicate (2 * level) ' '

mutual

/-- The tree beneath a node laid out, the node being at the given level. -/
def indentedAt (level : Nat) : XmlNode → XmlNode
  | comment content tail => comment content tail
  | element name attributes text [] tail => element name attributes text [] tail
  | element name attributes text (first :: more) tail =>
    element name attributes (fillBlank (newLine (level + 1)) text)
      (indentedChildren level (first :: more)) tail

/-- Children laid out, each on a line of its own; behind the last the line of the element ends. -/
def indentedChildren (level : Nat) : List XmlNode → List XmlNode
  | [] => []
  | node :: more =>
    let node := indentedAt (level + 1) node
    let following := newLine (if more.isEmpty then level else level + 1)
    node.withTail (fillBlank following node.tail) :: indentedChildren level more

end

/-- **A tree laid out in lines** of two blanks a level.  Text other than blanks stays as it is, and
so do elements without children. -/
def indented (node : XmlNode) : XmlNode := indentedAt 0 node

end XmlNode

end Unjar
