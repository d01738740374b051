import Unjar.Text

/-!
Maps that remember the order of insertion.

A map is the list of its entries.  A value put under a new key goes to the end; a value put under a
key that is present replaces the old value in its place.
-/

set_option autoImplicit false

namespace Unjar

/-- The entries of a map, each key once, in the order in which the keys were first put. -/
abbrev OrderedMap (κ ν : Type) := List (κ × ν)

namespace OrderedMap

variable {κ ν : Type} [DecidableEq κ]

/-- The value under a key. -/
def get? (m : OrderedMap κ ν) (key : κ) : Option ν :=
  (m.find? fun entry => entry.1 = key).map Prod.snd

/-- A value put under a key. -/
def put (key : κ) (value : ν) : OrderedMap κ ν → OrderedMap κ ν
  | [] => [(key, value)]
  | entry :: more => if entry.1 = key then (key, value) :: more else entry :: put key value more

def putAll (m : OrderedMap κ ν) (entries : List (κ × ν)) : OrderedMap κ ν :=
  entries.foldl (fun m (key, value) => m.put key value) m

/-- The map of a list of entries, of which the last under a key counts. -/
def ofList (entries : List (κ × ν)) : OrderedMap κ ν := putAll [] entries

/-- A value put under a key that is not present yet. -/
def putNew (key : κ) (value : ν) (m : OrderedMap κ ν) : OrderedMap κ ν :=
  match m.get? key with
  | some _ => m
  | none => m.put key value

@[simp] theorem get?_nil (key : κ) : get? ([] : OrderedMap κ ν) key = none := rfl

theorem get?_put_self (m : OrderedMap κ ν) (key : κ) (value : ν) :
    (m.put key value).get? key = some value := by
  induction m with
  | nil => simp [put, get?]
  | cons entry more ih =>
    by_cases h : entry.1 = key
    · simp [put, get?, h]
    · simpa [put, get?, h] using ih

theorem get?_put_of_ne (m : OrderedMap κ ν) {key other : κ} (value : ν) (h : other ≠ key) :
    (m.put key value).get? other = m.get? other := by
  induction m with
  | nil => simp [put, get?, Ne.symm h]
  | cons entry more ih =>
    by_cases hk : entry.1 = key
    · have : entry.1 ≠ other := fun e => h (e.symm.trans hk)
      simp [put, get?, hk, Ne.symm h]
    · by_cases ho : entry.1 = other
      · simp [put, get?, ho, h]
      · simpa [put, get?, hk, ho] using ih

end OrderedMap

end Unjar
