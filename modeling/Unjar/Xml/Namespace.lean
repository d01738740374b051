import Unjar.Xml.Doctype
import Unjar.Xml.Writer

/-!
Namespaces.

An attribute named `xmlns` declares the namespace of the elements without a prefix, and one named
`xmlns:p` the namespace of the prefix `p`, for the element that carries it and all within.  A name
is resolved once all declarations of its element have been seen.

Main definitions:

* `Unjar.Xml.Scope` — the prefixes in force;
* `Unjar.Xml.Scope.bind?` — one more declaration;
* `Unjar.Xml.Scope.elementName?`, `Unjar.Xml.Scope.attributeName?` — names resolved;
* `Unjar.Xml.Tag`, `Unjar.Xml.Tag.resolve?` — a start tag with all its names resolved.
-/

set_option autoImplicit false

namespace Unjar.Xml

/-- The namespaces of the prefixes in force, the innermost declaration first.  The empty prefix
stands for names without one, and the empty namespace for none. -/
abbrev Scope := List (Text × Text)

namespace Scope

/-- The scope around a document. -/
def outermost : Scope := [(xmlPrefix, xmlUri)]

/-- The namespace of declarations, which no prefix may have. -/
def declarationUri : Text := "http://www.w3.org/2000/xmlns/".toList

/-- The name of the attribute that declares a namespace. -/
def declarationName : Text := "xmlns".toList

/-- The prefix that an attribute declares, if it declares one. -/
def declared? (attributeName : Text) : Option Text :=
  if attributeName == declarationName then some []
  else dropPrefix? (declarationName ++ [':']) attributeName

/-- Whether a prefix may be declared for a namespace.  A prefix cannot be taken back, and the two
prefixes of XML itself and their namespaces belong together. -/
def isDeclarable (label uri : Text) : Bool :=
  !(!label.isEmpty && uri.isEmpty) && label != declarationName && uri != declarationUri &&
    ((label == xmlPrefix) == (uri == xmlUri)) && !uri.contains '\x7d'

/-- The scope with one more declaration. -/
def bind? (scope : Scope) (label uri : Text) : Option Scope :=
  if isDeclarable label uri then some ((label, uri) :: scope) else none

/-- A name with a prefix, resolved. -/
def prefixedName? (scope : Scope) (label localName : Text) : Option XmlName :=
  (scope.lookup label).map fun uri => ⟨some uri, localName⟩

/-- The name of an element, resolved. -/
def elementName? (scope : Scope) (name : Text) : Option XmlName :=
  match cutAtFirst ':' name with
  | some (label, localName) => scope.prefixedName? label localName
  | none =>
    match scope.lookup [] with
    | none | some [] => some (.plain name)
    | some uri => some ⟨some uri, name⟩

/-- The name of an attribute, resolved; without a prefix it is in no namespace. -/
def attributeName? (scope : Scope) (name : Text) : Option XmlName :=
  match cutAtFirst ':' name with
  | some (label, localName) => scope.prefixedName? label localName
  | none => some (.plain name)

/-- The scope with the declarations among attributes. -/
def bindAll? (scope : Scope) : List (Text × Text) → Option Scope
  | [] => some scope
  | (name, value) :: more =>
    match declared? name with
    | none => scope.bindAll? more
    | some label => do (← scope.bind? label value).bindAll? more

end Scope

/-- **A start tag** with its names resolved and its values in full. -/
structure Tag where
  /-- The name as it is written. -/
  written : Text
  name : XmlName
  attributes : XmlAttributes
  /-- The prefixes in force within the element. -/
  scope : Scope

namespace Tag

/-- Whether no name occurs twice. -/
def areDistinct {α : Type} [BEq α] : List α → Bool
  | [] => true
  | a :: more => !more.contains a && areDistinct more

def valueOf? (d : Doctype) (element : Text) (a : RawAttribute) : Option (Text × Text) := do
  let keepsBlanks := ((d.declarationOf? element a.1).map (·.keepsBlanks)).getD true
  let value ← d.attributeValue? keepsBlanks a.2
  pure (a.1, value)

/-- The attributes that an element has by declaration where they are not given. -/
def defaults (d : Doctype) (element : Text) (given : List Text) : List (Text × Text) :=
  d.attributes.filterMap fun a =>
    if a.element == element && !given.contains a.attributeName then
      a.default.map fun value => (a.attributeName, value)
    else none

/-- The attributes that declare no namespace, resolved. -/
def resolveAttributes? (scope : Scope) (attributes : List (Text × Text)) : Option XmlAttributes :=
  (attributes.filter fun (name, _) => (Scope.declared? name).isNone).mapM fun (name, value) => do
    pure (← scope.attributeName? name, value)

/-- **A start tag resolved** within a scope.  No attribute may be given twice, neither as it is
written nor as it is resolved. -/
def resolve? (d : Doctype) (outer : Scope) (name : Text) (attributes : List RawAttribute) :
    Option Tag := do
  let given := attributes.map Prod.fst
  if !areDistinct given then none
  let values ← attributes.mapM (valueOf? d name)
  let all := values ++ defaults d name given
  let scope ← outer.bindAll? all
  let resolved ← resolveAttributes? scope all
  if !areDistinct (resolved.map Prod.fst) then none
  pure ⟨name, ← scope.elementName? name, resolved, scope⟩

end Tag

end Unjar.Xml
