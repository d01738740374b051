import Unjar.OrderedMap
import Unjar.Xml.Node

/-!
Writing trees.

A namespace is written as a prefix of names.  Some namespaces have a prefix by custom; the others
are numbered in the order in which the tree first names them.  All prefixes are declared on the
element that is written, in front of its attributes.

Main definitions:

* `Unjar.Xml.escapeText`, `Unjar.Xml.escapeAttribute` — characters that may not stand for themselves;
* `Unjar.Xml.Prefixes.ofNode` — the prefixes of a tree;
* `Unjar.XmlNode.toText` — the text of a tree.
-/

set_option autoImplicit false

namespace Unjar

namespace Xml

/-! ### Escapes -/

/-- A character within text. -/
def escapeTextCharacter (c : Char) : Text :=
  match c with
  | '&' => "&amp;".toList
  | '<' => "&lt;".toList
  | '>' => "&gt;".toList
  | c => [c]

/-- A text as it is written between tags. -/
def escapeText (t : Text) : Text := t.flatMap escapeTextCharacter

/-- A character within an attribute. -/
def escapeAttributeCharacter (c : Char) : Text :=
  match c with
  | '"' => "&quot;".toList
  | '\r' => "&#13;".toList
  | '\n' => "&#10;".toList
  | '\t' => "&#09;".toList
  | c => escapeTextCharacter c

/-- A text as it is written between double quotes. -/
def escapeAttribute (t : Text) : Text := t.flatMap escapeAttributeCharacter

/-! ### Prefixes -/

/-- The namespace whose prefix needs no declaration. -/
def xmlUri : Text := "http://www.w3.org/XML/1998/namespace".toList

/-- The prefix that needs no declaration. -/
def xmlPrefix : Text := "xml".toList

/-- The prefixes that namespaces have by custom. -/
def customaryPrefixes : List (Text × Text) :=
  [("http://www.w3.org/1999/xhtml", "html"),
    ("http://www.w3.org/1999/02/22-rdf-syntax-ns#", "rdf"),
    ("http://schemas.xmlsoap.org/wsdl/", "wsdl"),
    ("http://www.w3.org/2001/XMLSchema", "xs"),
    ("http://www.w3.org/2001/XMLSchema-instance", "xsi"),
    ("http://purl.org/dc/elements/1.1/", "dc")].map
    fun (uri, label) => (uri.toList, label.toList)

/-- The prefixes of namespaces, in the order in which they were first named. -/
abbrev Prefixes := OrderedMap Text Text

namespace Prefixes

/-- The prefixes after one more namespace has been named. -/
def name (table : Prefixes) (uri : Text) : Prefixes :=
  if uri == xmlUri then table
  else table.putNew uri
    ((customaryPrefixes.lookup uri).getD ("ns".toList ++ Text.ofNat table.length))

/-- The prefix of a namespace that has been named. -/
def prefixOf (table : Prefixes) (uri : Text) : Text := (table.get? uri).getD xmlPrefix

def qualified (table : Prefixes) (name : XmlName) : Text :=
  match name.uri with
  | none => name.localName
  | some uri => table.prefixOf uri ++ ':' :: name.localName

/-- The declarations of the prefixes, in their order as texts. -/
def declarations (table : Prefixes) : Text :=
  (table.mergeSort fun a b => Text.le a.2 b.2).flatMap fun (uri, label) =>
    " xmlns:".toList ++ label ++ "=\"".toList ++ escapeAttribute uri ++ ['"']

end Prefixes

/-- The namespaces of the names of an element's tag, in order. -/
def tagUris (name : XmlName) (attributes : XmlAttributes) : List Text :=
  (name :: attributes.map Prod.fst).filterMap XmlName.uri

mutual

/-- The namespaces that a tree names, in document order. -/
def nodeUris : XmlNode → List Text
  | .comment .. => []
  | .element name attributes _ children _ => tagUris name attributes ++ allUris children

/-- The namespaces that trees name. -/
def allUris : List XmlNode → List Text
  | [] => []
  | node :: more => nodeUris node ++ allUris more

end

/-- **The prefixes of a tree.** -/
def Prefixes.ofNode (node : XmlNode) : Prefixes := (nodeUris node).foldl Prefixes.name []

/-! ### Tags -/

/-- The attributes of a tag. -/
def writeAttributes (table : Prefixes) (attributes : XmlAttributes) : Text :=
  attributes.flatMap fun (name, value) =>
    ' ' :: table.qualified name ++ "=\"".toList ++ escapeAttribute value ++ ['"']

mutual

/-- A node as it is written, with the given declarations in its tag and without what is behind it. -/
def writeNode (table : Prefixes) (declarations : Text) : XmlNode → Text
  | .comment content _ => "<!--".toList ++ content ++ "-->".toList
  | .element name attributes text children _ =>
    let tag := table.qualified name
    let start := '<' :: tag ++ declarations ++ writeAttributes table attributes
    if text.isEmpty && children.isEmpty then start ++ " />".toList
    else
      start ++ '>' :: escapeText text ++ writeChildren table children ++
        "</".toList ++ tag ++ ['>']

/-- Children as they are written, each with the text behind it. -/
def writeChildren (table : Prefixes) : List XmlNode → Text
  | [] => []
  | node :: more =>
    writeNode table [] node ++ escapeText node.tail ++ writeChildren table more

end

end Xml

/-- **The text of a tree**, without what stands behind it. -/
def XmlNode.toText (node : XmlNode) : Text :=
  let table := Xml.Prefixes.ofNode node
  Xml.writeNode table table.declarations node

end Unjar
