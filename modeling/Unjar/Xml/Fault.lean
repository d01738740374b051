import Unjar.Xml.Document

/-!
What is wrong with a text that is no document.

Reading tells only whether a text is a document.  Where it matters what is wrong, the text is gone
through once more, character by character, by a machine that stops where the text cannot go on, and
tells what is wrong there and in which line and column.  Some things are found only later than they
stand: that of two attributes one is given twice shows at the end of their tag, and that a name has no
namespace shows there too.

The machine knows all that an element consists of.  It does not look into declarations: it takes the
declaration at the head as it is, and rejects the declaration of a type, and all else around the tree
with which a part of one could begin, where it begins.

Main definitions:

* `Unjar.Xml.Complaint`, `Unjar.Xml.Fault` — what is wrong, and where;
* `Unjar.Xml.Machine`, `Unjar.Xml.Machine.step` — the machine, and one character;
* `Unjar.Xml.faultOf` — what is wrong with a text.
-/

set_option autoImplicit false

namespace Unjar.Xml

/-- A place in a text: its line, counted from one, and the number of characters before it there. -/
structure Place where
  line : Nat
  column : Nat
deriving DecidableEq, Repr

/-- **What is wrong with a text.** -/
inductive Complaint where
  | invalidToken
  | unclosedToken
  | noElement
  | mismatchedTag
  | duplicateAttribute
  | undefinedEntity
  | invalidNumber
  | misplacedDeclaration
  | unclosedLiteral
  | unboundPrefix
  | undeclaredPrefix
  /-- The prefix `xml` is bound to a namespace of another. -/
  | reservedXml
  /-- The prefix of declarations is declared. -/
  | reservedXmlns
  /-- A prefix is bound to a namespace that is reserved. -/
  | reservedNamespace
  | grammar
  | junk
deriving DecidableEq, Repr

/-- A complaint in words. -/
def Complaint.message (complaint : Complaint) : Text := String.toList <|
  match complaint with
  | invalidToken => "not well-formed (invalid token)"
  | unclosedToken => "unclosed token"
  | noElement => "no element found"
  | mismatchedTag => "mismatched tag"
  | duplicateAttribute => "duplicate attribute"
  | undefinedEntity => "undefined entity"
  | invalidNumber => "reference to invalid character number"
  | misplacedDeclaration => "XML or text declaration not at start of entity"
  | unclosedLiteral => "unclosed CDATA section"
  | unboundPrefix => "unbound prefix"
  | undeclaredPrefix => "must not undeclare prefix"
  | reservedXml =>
    "reserved prefix (xml) must not be undeclared or bound to another namespace name"
  | reservedXmlns => "reserved prefix (xmlns) must not be declared or undeclared"
  | reservedNamespace => "prefix must not be bound to one of the reserved namespace names"
  | grammar => "syntax error"
  | junk => "junk after document element"

/-- **What is wrong, and where.** -/
structure Fault where
  complaint : Complaint
  place : Place
deriving DecidableEq, Repr

/-- A fault in words. -/
def Fault.message (f : Fault) : Text :=
  f.complaint.message ++ ": line ".toList ++ Text.ofNat f.place.line ++ ", column ".toList ++
    Text.ofNat f.place.column

/-! ### Start tags -/

/-- An attribute as it stands in a tag. -/
structure PlacedAttribute where
  place : Place
  name : Text
  /-- Its value, as far as it has been read. -/
  value : Text
  /-- The first thing that is wrong with its value. -/
  flaw : Option Fault

/-- A start tag, as far as it has been read. -/
structure PartialTag where
  name : Text
  /-- The last one first. -/
  attributes : List PlacedAttribute

/-- What is wrong with the declaration of a prefix. -/
def complaintOf? (label uri : Text) : Option Complaint :=
  if uri.isEmpty && !label.isEmpty then some .undeclaredPrefix
  else if label == Scope.declarationName then some .reservedXmlns
  else if uri.contains '\x7d' then some .grammar
  else if label == xmlPrefix && uri != xmlUri then some .reservedXml
  else if label != xmlPrefix && uri == xmlUri then some .reservedNamespace
  else if uri == Scope.declarationUri then some .reservedNamespace
  else none

namespace PartialTag

/-- The names given so far and the scope, with one more attribute of a tag that begins at a place. -/
def declare (start : Place) (found : List Text × Scope) (a : PlacedAttribute) :
    Except Fault (List Text × Scope) :=
  let (given, scope) := found
  if given.contains a.name then .error ⟨.duplicateAttribute, a.place⟩
  else match a.flaw with
    | some fault => .error fault
    | none =>
      match Scope.declared? a.name with
      | none => .ok (a.name :: given, scope)
      | some label =>
        match complaintOf? label a.value with
        | some complaint => .error ⟨complaint, start⟩
        | none => .ok (a.name :: given, (label, a.value) :: scope)

/-- The names resolved so far, with that of one more attribute. -/
def resolve (start : Place) (scope : Scope) (found : List XmlName) (a : PlacedAttribute) :
    Except Fault (List XmlName) :=
  if (Scope.declared? a.name).isSome then .ok found
  else match scope.attributeName? a.name with
    | none => .error ⟨.unboundPrefix, start⟩
    | some name =>
      if found.contains name then .error ⟨.duplicateAttribute, start⟩ else .ok (name :: found)

/-- The scope within an element whose tag begins at a place. -/
def scopeIn (tag : PartialTag) (start : Place) (outer : Scope) : Except Fault Scope := do
  let attributes := tag.attributes.reverse
  let (_, scope) ← attributes.foldlM (declare start) ([], outer)
  let _ ← attributes.foldlM (resolve start scope) []
  match scope.elementName? tag.name with
  | none => .error ⟨.unboundPrefix, start⟩
  | some _ => .ok scope

end PartialTag

/-! ### The machine -/

/-- **What the machine is reading.** -/
inductive Mode where
  /-- Text, or what stands around the tree, behind a number of closing brackets. -/
  | text (brackets : Nat)
  | reference (body : Text)
  /-- What follows an angle bracket. -/
  | markup
  /-- What follows an exclamation mark, and perhaps a hyphen. -/
  | mark (hyphen : Bool)
  | comment (hyphens : Nat)
  /-- The opening of a section of literal text, and where it first differs from one. -/
  | section (length : Nat) (difference : Option Place)
  | literal (brackets : Nat)
  /-- The target of an instruction, and whether a question mark stands behind it. -/
  | target (name : Text) (marked : Bool)
  | instruction (name : Text) (marked : Bool)
  | tagName (name : Text)
  /-- What follows white space in a tag. -/
  | inTag (tag : PartialTag)
  /-- What follows the slash at the end of a tag. -/
  | emptyTag (tag : PartialTag)
  | attributeName (tag : PartialTag) (a : PlacedAttribute)
  | equalsSign (tag : PartialTag) (a : PlacedAttribute)
  | quotation (tag : PartialTag) (a : PlacedAttribute)
  | value (tag : PartialTag) (a : PlacedAttribute) (quote : Char)
  | valueReference (tag : PartialTag) (a : PlacedAttribute) (quote : Char) (place : Place)
      (body : Text)
  | behindValue (tag : PartialTag)
  | endTag (name : Text)
  /-- White space behind the name of an end tag. -/
  | inEndTag (name : Text)

/-- **The machine.** -/
structure Machine where
  /-- Where the text begins. -/
  head : Place
  /-- Where the next character stands. -/
  place : Place
  /-- Where the last character stands, if that is a carriage return. -/
  return? : Option Place
  /-- Where that begins which is being read. -/
  token : Place
  /-- The elements that are open, with the prefixes in force, the innermost first. -/
  elements : List (Text × Scope)
  /-- Whether the tree has ended. -/
  hasEnded : Bool
  mode : Mode

namespace Machine

def start (head : Place) : Machine := ⟨head, head, none, head, [], false, .text 0⟩

variable (m : Machine)

/-- What is wrong at the next character. -/
def stop (complaint : Complaint) : Except Fault Machine := .error ⟨complaint, m.place⟩

/-- What is wrong with all that is being read. -/
def reject (complaint : Complaint) : Except Fault Machine := .error ⟨complaint, m.token⟩

def enter (mode : Mode) : Except Fault Machine := .ok { m with mode }

/-- Something new begins with the next character. -/
def beginWith (mode : Mode) : Except Fault Machine := .ok { m with mode, token := m.place }

/-- The complaint about what may not stand outside of the tree. -/
def outside : Complaint := if m.hasEnded then .junk else .grammar

/-- The machine behind a character.  A line ends with a carriage return, a line feed, or both. -/
def advance (c : Char) : Machine :=
  let next : Place :=
    if c = '\r' then ⟨m.place.line + 1, 0⟩
    else if c = '\n' then if m.return?.isSome then m.place else ⟨m.place.line + 1, 0⟩
    else { m.place with column := m.place.column + 1 }
  { m with place := next, return? := if c = '\r' then some m.place else none }

/-- Whether a character may begin something in a declaration. -/
def standsInDeclarations (c : Char) : Bool :=
  isQualifiedCharacter c || "\"'%,[]()|>#".toList.contains c

/-- Text, and what stands around the tree. -/
def inText (brackets : Nat) (c : Char) : Except Fault Machine :=
  if c == '<' then m.beginWith .markup
  else if m.elements.isEmpty then
    if isSpace c then .ok m
    else m.stop (if standsInDeclarations c then m.outside else .invalidToken)
  else if c == '&' then m.beginWith (.reference [])
  else if c == ']' then m.enter (.text (min 2 (brackets + 1)))
  else if c == '>' && brackets == 2 then m.stop .invalidToken
  else m.enter (.text 0)

/-- What follows an angle bracket. -/
def inMarkup (c : Char) : Except Fault Machine :=
  if c == '!' then m.enter (.mark false)
  else if c == '?' then m.enter (.target [] false)
  else if isNameStart c then if m.hasEnded then m.reject .junk else m.enter (.tagName [c])
  else if c == '/' && !m.elements.isEmpty then m.enter (.endTag [])
  else m.stop .invalidToken

/-- What follows an exclamation mark. -/
def inMark (hyphen : Bool) (c : Char) : Except Fault Machine :=
  if c == '-' then m.enter (if hyphen then .comment 0 else .mark true)
  else if hyphen then m.stop .invalidToken
  else if m.elements.isEmpty then
    if c == '[' || c.isAlpha then m.reject m.outside else m.stop .invalidToken
  else if c == '[' then m.enter (.section 0 none)
  else m.stop .invalidToken

/-- The opening of a section of literal text; it is looked at once it has its full length. -/
def inSection (length : Nat) (difference : Option Place) (c : Char) : Except Fault Machine :=
  let word := "CDATA[".toList
  let difference := difference.or (if word[length]? == some c then none else some m.place)
  if length + 1 < word.length then m.enter (.section (length + 1) difference)
  else match difference with
    | some place => .error ⟨.invalidToken, place⟩
    | none => m.enter (.literal 0)

/-- The end of an instruction; one whose target is that of declarations has to stand at the head. -/
def endInstruction (name : Text) : Except Fault Machine :=
  if name != "xml".toList then m.enter (.text 0)
  else if m.hasEnded then m.reject .junk
  else if m.token = m.head then m.enter (.text 0)
  else m.reject .misplacedDeclaration

/-- The target of an instruction. -/
def inTarget (name : Text) (marked : Bool) (c : Char) : Except Fault Machine :=
  if marked then if c == '>' then m.endInstruction name else m.stop .invalidToken
  else if name.isEmpty then
    if isNameStart c then m.enter (.target [c] false) else m.stop .invalidToken
  else if isNameCharacter c then m.enter (.target (name ++ [c]) false)
  else if isReservedTarget name && name != "xml".toList then m.stop .invalidToken
  else if c == '?' then m.enter (.target name true)
  else if isSpace c then m.enter (.instruction name false)
  else m.stop .invalidToken

/-- Whether a name with a prefix may go on with a character. -/
def nameGoesOn (name : Text) (c : Char) : Bool :=
  if name.getLast? == some ':' then isNameStart c
  else isNameCharacter c || (c == ':' && !name.contains ':')

/-- The end of a start tag. -/
def endStartTag (tag : PartialTag) (isEmpty : Bool) : Except Fault Machine := do
  let outer := match m.elements with
    | [] => Scope.outermost
    | (_, scope) :: _ => scope
  let scope ← tag.scopeIn m.token outer
  if isEmpty then pure { m with hasEnded := m.elements.isEmpty, mode := .text 0 }
  else pure { m with elements := (tag.name, scope) :: m.elements, mode := .text 0 }

/-- What follows a name or a value in a tag. -/
def afterPart (tag : PartialTag) (c : Char) : Except Fault Machine :=
  if isSpace c then m.enter (.inTag tag)
  else if c == '>' then m.endStartTag tag false
  else if c == '/' then m.enter (.emptyTag tag)
  else m.stop .invalidToken

/-- The name of an element. -/
def inTagName (name : Text) (c : Char) : Except Fault Machine :=
  if nameGoesOn name c then m.enter (.tagName (name ++ [c]))
  else if name.getLast? == some ':' then m.stop .invalidToken
  else m.afterPart ⟨name, []⟩ c

/-- The name of an attribute. -/
def inAttributeName (tag : PartialTag) (a : PlacedAttribute) (c : Char) : Except Fault Machine :=
  if nameGoesOn a.name c then m.enter (.attributeName tag { a with name := a.name ++ [c] })
  else if a.name.getLast? == some ':' then m.stop .invalidToken
  else if isSpace c then m.enter (.equalsSign tag a)
  else if c == '=' then m.enter (.quotation tag a)
  else m.stop .invalidToken

/-- The value of an attribute, in which white space counts as blanks. -/
def inValue (tag : PartialTag) (a : PlacedAttribute) (quote c : Char) : Except Fault Machine :=
  if c == quote then m.enter (.behindValue { tag with attributes := a :: tag.attributes })
  else if c == '<' then m.stop .invalidToken
  else if c == '&' then m.enter (.valueReference tag a quote m.place [])
  else m.enter (.value tag { a with value := a.value ++ [if isSpace c then ' ' else c] } quote)

/-- Whether what stands behind an ampersand may go on with a character. -/
def referenceGoesOn (body : Text) (c : Char) : Bool :=
  match body with
  | [] => isNameStart c || c == '#'
  | ['#'] => c == 'x' || c.isDigit
  | '#' :: 'x' :: digits => (hexDigit? c).isSome || (c == ';' && !digits.isEmpty)
  | '#' :: _ => c.isDigit || c == ';'
  | _ => isNameCharacter c || c == ';'

/-- The character that a reference stands for; without declarations there are no other entities than
those that are built in. -/
def referred (body : Text) : Except Complaint Char :=
  match (Piece.ofReference? body).map Piece.resolveBuiltIn with
  | some (.referred c) | some (.plain c) => .ok c
  | some (.entity _) => .error .undefinedEntity
  | none => .error .invalidNumber

/-- A reference in text. -/
def inReference (body : Text) (c : Char) : Except Fault Machine :=
  if !referenceGoesOn body c then m.stop .invalidToken
  else if c != ';' then m.enter (.reference (body ++ [c]))
  else match referred body with
    | .ok _ => m.enter (.text 0)
    | .error complaint => m.reject complaint

/-- A reference in a value.  What is wrong with it shows at the end of the tag. -/
def inValueReference (tag : PartialTag) (a : PlacedAttribute) (quote : Char) (place : Place)
    (body : Text) (c : Char) : Except Fault Machine :=
  if !referenceGoesOn body c then m.stop .invalidToken
  else if c != ';' then m.enter (.valueReference tag a quote place (body ++ [c]))
  else
    let read : PlacedAttribute := match referred body with
      | .ok c => { a with value := a.value ++ [c] }
      | .error .invalidNumber => { a with flaw := a.flaw.or (some ⟨.invalidNumber, place⟩) }
      | .error complaint => { a with flaw := a.flaw.or (some ⟨complaint, m.token⟩) }
    m.enter (.value tag read quote)

/-- The end of an element, which has to be the innermost one. -/
def endElement (name : Text) : Except Fault Machine :=
  match m.elements with
  | [] => m.stop .invalidToken
  | (opened, _) :: outer =>
    if name == opened then
      .ok { m with elements := outer, hasEnded := outer.isEmpty, mode := .text 0 }
    else .error ⟨.mismatchedTag, { m.token with column := m.token.column + 2 }⟩

/-- An end tag. -/
def inEndTag (name : Text) (c : Char) : Except Fault Machine :=
  if name.isEmpty then if isNameStart c then m.enter (.endTag [c]) else m.stop .invalidToken
  else if isQualifiedCharacter c then m.enter (.endTag (name ++ [c]))
  else if isSpace c then m.enter (.inEndTag name)
  else if c == '>' then m.endElement name
  else m.stop .invalidToken

/-- What the machine does with the next character. -/
def move (c : Char) : Except Fault Machine :=
  match m.mode with
  | .text brackets => m.inText brackets c
  | .reference body => m.inReference body c
  | .markup => m.inMarkup c
  | .mark hyphen => m.inMark hyphen c
  | .comment 2 => if c == '>' then m.enter (.text 0) else m.stop .invalidToken
  | .comment hyphens => m.enter (.comment (if c == '-' then hyphens + 1 else 0))
  | .section length difference => m.inSection length difference c
  | .literal brackets =>
    if c == '>' && brackets == 2 then m.enter (.text 0)
    else m.enter (.literal (if c == ']' then min 2 (brackets + 1) else 0))
  | .target name marked => m.inTarget name marked c
  | .instruction name marked =>
    if marked && c == '>' then m.endInstruction name else m.enter (.instruction name (c == '?'))
  | .tagName name => m.inTagName name c
  | .inTag tag =>
    if isNameStart c then m.enter (.attributeName tag ⟨m.place, [c], [], none⟩)
    else m.afterPart tag c
  | .emptyTag tag => if c == '>' then m.endStartTag tag true else m.stop .invalidToken
  | .attributeName tag a => m.inAttributeName tag a c
  | .equalsSign tag a =>
    if c == '=' then m.enter (.quotation tag a)
    else if isSpace c then .ok m
    else m.stop .invalidToken
  | .quotation tag a =>
    if c == '"' || c == '\'' then m.enter (.value tag a c)
    else if isSpace c then .ok m
    else m.stop .invalidToken
  | .value tag a quote => m.inValue tag a quote c
  | .valueReference tag a quote place body => m.inValueReference tag a quote place body c
  | .behindValue tag => m.afterPart tag c
  | .endTag name => m.inEndTag name c
  | .inEndTag name =>
    if c == '>' then m.endElement name else if isSpace c then .ok m else m.stop .invalidToken

/-- **One character.** -/
def step (c : Char) : Except Fault Machine :=
  if isCharacter c then (m.move c).map fun moved => moved.advance c else m.stop .invalidToken

/-- What is wrong at the end of the text, if nothing was wrong before. -/
def finish : Fault :=
  match m.mode with
  | .text _ => ⟨.noElement, if m.elements.isEmpty then m.place else m.return?.getD m.place⟩
  | .literal brackets =>
    let place := m.return?.getD m.place
    ⟨.unclosedLiteral, { place with column := place.column - brackets }⟩
  | _ => ⟨.unclosedToken, m.token⟩

end Machine

/-- **What is wrong with a text that is no document.**  A mark in front of it counts as a character of
its first line. -/
def faultOf (t : Text) : Fault :=
  let rest := dropTextMark t
  match rest.foldlM Machine.step (.start ⟨1, t.length - rest.length⟩) with
  | .error fault => fault
  | .ok m => m.finish

end Unjar.Xml
