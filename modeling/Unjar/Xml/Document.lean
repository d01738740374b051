import Unjar.Xml.Encoding
import Unjar.Xml.Namespace

/-!
Documents.

A document is a tree of elements, perhaps with a declaration at its head and the declaration of its
type in front of it; comments and processing instructions may stand around it.  A text is a document
or it is not: nothing is mended.

Main definitions:

* `Unjar.Xml.OpenElement`, `Unjar.Xml.build?` — the tree of balanced tags;
* `Unjar.Xml.cutAtRoot?` — where the tree ends;
* `Unjar.Xml.readText?`, `Unjar.Xml.readBytes?` — the root of a document.
-/

set_option autoImplicit false

namespace Unjar.Xml

/-! ### The tree -/

/-- An element whose end has not been met. -/
structure OpenElement where
  /-- Its start tag. -/
  tag : Tag
  /-- The text before its first child. -/
  text : Text
  /-- Its children so far, the last one first. -/
  children : List XmlNode

namespace OpenElement

/-- An element that has begun. -/
def start (tag : Tag) : OpenElement := ⟨tag, [], []⟩

/-- More text, behind the last child if there is one. -/
def addText (e : OpenElement) (t : Text) : OpenElement :=
  match e.children with
  | [] => { e with text := e.text ++ t }
  | last :: others => { e with children := last.withTail (last.tail ++ t) :: others }

def addChild (e : OpenElement) (child : XmlNode) : OpenElement :=
  { e with children := child :: e.children }

/-- The element at its end. -/
def close (e : OpenElement) : XmlNode :=
  .element e.tag.name e.tag.attributes e.text e.children.reverse []

end OpenElement

/-- The scope within the innermost open element. -/
def scopeOf : List OpenElement → Scope
  | [] => .outermost
  | e :: _ => e.tag.scope

/-- **The tree of events**, given the elements that are open, the innermost first. -/
def build? (d : Doctype) (stack : List OpenElement) : List Event → Option XmlNode
  | [] => none
  | .startTag name attributes :: more => do
    let tag ← Tag.resolve? d (scopeOf stack) name attributes
    build? d (.start tag :: stack) more
  | .text t :: more =>
    match stack with
    | [] => none
    | e :: outer => build? d (e.addText t :: outer) more
  | .endTag name :: more =>
    match stack with
    | [] => none
    | e :: outer =>
      if e.tag.written != name then none
      else match outer with
        | [] => if more.isEmpty then some e.close else none
        | parent :: outer => build? d (parent.addChild e.close :: outer) more

/-! ### Around the tree -/

/-- The tokens up to the end of the element that they begin with, and those behind it; `depth`
elements are open already. -/
def cutAtRoot? (depth : Nat) : List Token → Option (List Token × List Token)
  | [] => none
  | .startTag name attributes :: more =>
    (cutAtRoot? (depth + 1) more).map fun (root, rest) => (.startTag name attributes :: root, rest)
  | .endTag name :: more =>
    match depth with
    | 0 => none
    | 1 => some ([.endTag name], more)
    | depth + 2 =>
      (cutAtRoot? (depth + 1) more).map fun (root, rest) => (.endTag name :: root, rest)
  | token :: more =>
    match depth with
    | 0 => none
    | depth + 1 => (cutAtRoot? (depth + 1) more).map fun (root, rest) => (token :: root, rest)

/-- Whether a piece is white space as it stands. -/
def isPlainSpace : Piece → Bool
  | .plain c => isSpace c
  | _ => false

/-- Whether a token may follow the tree. -/
def mayFollow : Token → Bool
  | .text pieces => pieces.all isPlainSpace
  | _ => false

/-- What follows white space, comments and processing instructions. -/
def afterMiscellany? (t : Text) : Option Text :=
  match _hs : dropSpaces t with
  | '<' :: '?' :: r =>
    match _h : afterInstruction? r with
    | none => none
    | some rest => afterMiscellany? rest
  | '<' :: '!' :: '-' :: '-' :: r =>
    match _h : afterComment? r with
    | none => none
    | some rest => afterMiscellany? rest
  | r => some r
termination_by t.length
decreasing_by
  · have h₁ := length_of_afterInstruction? _h
    have h₂ := length_dropSpaces_le t
    simp only [_hs, List.length_cons] at h₂
    omega
  · have h₁ := length_of_afterComment? _h
    have h₂ := length_dropSpaces_le t
    simp only [_hs, List.length_cons] at h₂
    omega

/-- What opens the declaration of the type. -/
def doctypeOpening : Text := "<!DOCTYPE".toList

/-- The declarations in front of the tree, and the tree with what follows it. -/
def readProlog? (standsAlone : Bool) (t : Text) : Option (Doctype × Text) := do
  let rest ← afterMiscellany? t
  match dropPrefix? doctypeOpening rest with
  | none => pure (.empty standsAlone, rest)
  | some rest => do
    let (d, rest) ← Doctype.read? (.empty standsAlone) rest
    pure (d, ← afterMiscellany? rest)

/-- The root of a document whose characters and line ends have been seen to. -/
def readRoot? (t : Text) : Option XmlNode := do
  let (heading, rest) ← Heading.read? t
  let (d, rest) ← readProlog? heading.standsAlone rest
  let (root, others) ← cutAtRoot? 0 (← tokens? rest)
  if !others.all mayFollow then none
  build? d [] (← d.entities.events? root)

/-- The root of a document that holds the characters of XML only. -/
def readCharacters? (t : Text) : Option XmlNode :=
  if t.all isCharacter then readRoot? (Text.unifyLineEnds t) else none

/-- **The root of a document** that is given as a text; what it declares as its encoding does not
matter. -/
def readText? (t : Text) : Option XmlNode := readCharacters? (dropTextMark t)

/-- **The root of a document** that is given as bytes.  An encoding that cannot be read is a fault of
its own, found before anything behind the declaration is looked at. -/
def readBytes? (bytes : Bytes) : Except EncodingFault (Option XmlNode) :=
  (decode? bytes).map fun t? => t?.bind readCharacters?

end Unjar.Xml
