import Unjar.OrderedMap
import Unjar.Xml.Markup

/-!
Entities.

An entity stands for a text that may refer to further entities.  The text of an entity is read like
the text of a document: in an attribute as characters, elsewhere as markup that has to be balanced.
An entity that refers to itself, at once or through others, stands for nothing; it is recognised by
a chain of references that is longer than there are entities.

Main definitions:

* `Unjar.Xml.Entities` — what entities stand for;
* `Unjar.Xml.Entities.attributeText?` — the text of an attribute;
* `Unjar.Xml.Event`, `Unjar.Xml.Entities.events?` — markup without references.
-/

set_option autoImplicit false

namespace Unjar.Xml

/-- **What entities stand for.** -/
structure Entities where
  /-- The text of each entity; an entity without a text is kept elsewhere. -/
  texts : OrderedMap Text (Option Text)
  /-- Whether an entity that is not declared here may be declared elsewhere. -/
  isOpen : Bool
deriving Repr

/-- A tag, or text between tags, without references. -/
inductive Event where
  | startTag (name : Text) (attributes : List RawAttribute)
  | endTag (name : Text)
  | text (content : Text)
deriving Repr

/-- A character in front of events. -/
def consCharacter (c : Char) : List Event → List Event
  | .text t :: more => .text (c :: t) :: more
  | events => .text [c] :: events

namespace Entities

/-- No entities but those that are built in. -/
def none : Entities := ⟨[], false⟩

/-- The text of an entity that is kept here. -/
def get? (e : Entities) (name : Text) : Option Text := (e.texts.get? name).join

/-! ### Attributes -/

/-- What a character of an attribute stands for: white space stands for a blank, and an angle
bracket is out of place. -/
def attributeCharacter? (c : Char) : Option Char :=
  if c == '<' then .none else some (if isSpace c then ' ' else c)

/-- The text of the pieces of an attribute, entities being opened `depth` deep. -/
def attributeWithin? (e : Entities) : Nat → List Piece → Option Text
  | _, [] => some []
  | depth, .plain c :: more => do
    let c ← attributeCharacter? c
    pure (c :: (← attributeWithin? e depth more))
  | depth, .referred c :: more => do pure (c :: (← attributeWithin? e depth more))
  | 0, .entity _ :: _ => .none
  | depth + 1, .entity name :: more => do
    let inner ← match e.texts.get? name with
      | some (some t) => do attributeWithin? e depth (← Piece.read? t)
      | some .none => .none
      | .none => if e.isOpen then some [] else .none
    pure (inner ++ (← attributeWithin? e (depth + 1) more))
termination_by depth pieces => (depth, pieces.length)

/-- **The text of an attribute.** -/
def attributeText? (e : Entities) (pieces : List Piece) : Option Text :=
  e.attributeWithin? (e.texts.length + 1) pieces

/-! ### Markup -/

/-- The depth of elements behind some events, from a depth before them; none if an element ends that
has not begun among them. -/
def depthAfter : Nat → List Event → Option Nat
  | depth, [] => some depth
  | depth, .startTag .. :: more => depthAfter (depth + 1) more
  | 0, .endTag _ :: _ => .none
  | depth + 1, .endTag _ :: more => depthAfter depth more
  | depth, .text _ :: more => depthAfter depth more

/-- Whether elements begin and end evenly. -/
def isBalanced (events : List Event) : Bool := depthAfter 0 events == some 0

mutual

/-- The events of tokens, entities being opened `depth` deep. -/
def eventsWithin? (e : Entities) (depth : Nat) : List Token → Option (List Event)
  | [] => some []
  | .startTag name attributes :: more => do
    pure (.startTag name attributes :: (← eventsWithin? e depth more))
  | .endTag name :: more => do pure (.endTag name :: (← eventsWithin? e depth more))
  | .literal content :: more => do pure (.text content :: (← eventsWithin? e depth more))
  | .text pieces :: more => do
    pure ((← piecesWithin? e depth pieces) ++ (← eventsWithin? e depth more))
termination_by tokens => (depth, 1, tokens.length)

/-- The events of pieces of text. -/
def piecesWithin? (e : Entities) (depth : Nat) : List Piece → Option (List Event)
  | [] => some []
  | .plain c :: more => do pure (consCharacter c (← piecesWithin? e depth more))
  | .referred c :: more => do pure (consCharacter c (← piecesWithin? e depth more))
  | .entity name :: more =>
    match depth with
    | 0 => .none
    | depth + 1 => do
      let tokens ← tokens? (← e.get? name)
      let inner ← eventsWithin? e depth tokens
      if !isBalanced inner then .none
      pure (inner ++ (← piecesWithin? e (depth + 1) more))
termination_by pieces => (depth, 0, pieces.length)

end

/-- **Markup without references.** -/
def events? (e : Entities) (tokens : List Token) : Option (List Event) :=
  e.eventsWithin? (e.texts.length + 1) tokens

end Entities

end Unjar.Xml
