import Unjar.OrderedMap
import Unjar.Text

/-!
Placeholders.

A value may hold placeholders, a name in braces behind a dollar sign, that stand for properties.
They are replaced from left to right; what is put in for one is not looked at again, and one whose
name is not defined stays.

Main definition: `Unjar.Properties.substitute`.
-/

set_option autoImplicit false

namespace Unjar

/-- The values of properties by name. -/
abbrev Properties := OrderedMap Text Text

namespace Properties

def placeholder (name : Text) : Text := '$' :: '\x7b' :: name ++ ['\x7d']

/-- **A value with its placeholders replaced.**  The name in a placeholder reaches to the next
closing brace and is not empty. -/
def substitute (properties : Properties) : Text → Text
  | [] => []
  | '$' :: '\x7b' :: r =>
    match _h : cutAtFirst '\x7d' r with
    | none => '$' :: '\x7b' :: r
    | some (name, rest) =>
      if name.isEmpty then '$' :: substitute properties ('\x7b' :: r)
      else (properties.get? name).getD (placeholder name) ++ substitute properties rest
  | c :: r => c :: substitute properties r
termination_by t => t.length
decreasing_by
  · simp
  · have := length_of_cutAtFirst _h
    simp only [List.length_cons]
    omega
  · simp

end Properties

end Unjar
