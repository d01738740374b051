import Unjar.ClassFile.Name

/-!
Type descriptors.

The type of a field is one of eight letters, a class name between `L` and `;`, or an array of such
a type; the type of a method is the list of its parameters in parentheses followed by its result.
A descriptor contributes the classes that it names, an array counting for its elements; a text that
is no descriptor contributes none.

Main definitions:

* `Unjar.FieldType`, `Unjar.MethodType` — types;
* `Unjar.FieldType.print`, `Unjar.MethodType.print` — their descriptors;
* `Unjar.FieldType.read`, `Unjar.MethodType.parse` — reading a descriptor;
* `Unjar.Descriptor.ofField`, `Unjar.Descriptor.ofMethod`, `Unjar.Descriptor.ofClass` — the
  classes that a descriptor or a class constant names.
-/

set_option autoImplicit false

namespace Unjar

/-- The types of fields, parameters and results. -/
inductive FieldType where
  /-- A primitive type, by its letter. -/
  | primitive (letter : CodePoint)
  /-- A class, by its internal name. -/
  | object (name : Name)
  | array (element : FieldType)
deriving DecidableEq, Repr

namespace FieldType

/-- The letters of the primitive types. -/
def isPrimitive (letter : CodePoint) : Bool := (Name.ofString "BCDFIJSZ").contains letter

def print : FieldType → Name
  | primitive letter => [letter]
  | object name => 'L'.toNat :: name ++ [';'.toNat]
  | array element => '['.toNat :: element.print

/-- The class that a type names, in dotted form; an array names that of its elements. -/
def className : FieldType → Option Name
  | primitive _ => none
  | object name => some name.dotted
  | array element => element.className

/-- The type at the front of a descriptor, and what follows it. -/
def read : Name → Option (FieldType × Name)
  | [] => none
  | c :: r =>
    if isPrimitive c then some (primitive c, r)
    else if c = '['.toNat then (read r).map fun (element, rest) => (array element, rest)
    else if c = 'L'.toNat then
      match cutAtFirst ';'.toNat r with
      | some (name, rest) => if name.isEmpty then none else some (object name, rest)
      | none => none
    else none

end FieldType

theorem FieldType.read_rest_length {s rest : Name} {t : FieldType}
    (h : FieldType.read s = some (t, rest)) : rest.length < s.length := by
  induction s generalizing t with
  | nil => simp [read] at h
  | cons c r ih =>
    unfold read at h
    split at h
    · simp_all
    · split at h
      · simp only [Option.map_eq_some_iff, Prod.mk.injEq, Prod.exists] at h
        obtain ⟨element, rest', h, -, rfl⟩ := h
        have := ih h
        simp
        omega
      · split at h
        · split at h
          · rename_i name rest' hc
            split at h
            · simp at h
            · simp only [Option.some.injEq, Prod.mk.injEq] at h
              obtain ⟨-, rfl⟩ := h
              have := cutAtFirst_eq_some hc
              simp [this]
              omega
          · simp at h
        · simp at h

/-- The type of a method; a result of none is `void`. -/
structure MethodType where
  parameters : List FieldType
  result : Option FieldType
deriving DecidableEq, Repr

namespace MethodType

def print (t : MethodType) : Name :=
  '('.toNat :: t.parameters.flatMap FieldType.print ++
    ')'.toNat :: (match t.result with
      | none => ['V'.toNat]
      | some result => result.print)

/-- The types up to the closing parenthesis, and what follows it. -/
def readParameters (s : Name) : Option (List FieldType × Name) :=
  match s with
  | [] => none
  | c :: r =>
    if c = ')'.toNat then some ([], r)
    else match _h : FieldType.read (c :: r) with
      | none => none
      | some (first, rest) =>
        (readParameters rest).map fun (more, rest) => (first :: more, rest)
  termination_by s.length
  decreasing_by exact FieldType.read_rest_length ‹_›

/-- The type of a result, which ends the descriptor. -/
def readResult (s : Name) : Option (Option FieldType) :=
  if s = ['V'.toNat] then some none
  else match FieldType.read s with
    | some (result, []) => some (some result)
    | _ => none

/-- The type that a descriptor spells. -/
def parse : Name → Option MethodType
  | [] => none
  | c :: r =>
    if c = '('.toNat then do
      let (parameters, rest) ← readParameters r
      let result ← readResult rest
      pure ⟨parameters, result⟩
    else none

/-- The classes that a type names, in dotted form: of the parameters in order, then of the
result. -/
def classNames (t : MethodType) : List Name :=
  (t.parameters ++ t.result.toList).filterMap FieldType.className

end MethodType

namespace Descriptor

/-- The class that the descriptor of a field names, if any. -/
def ofField (s : Name) : Option Name :=
  match FieldType.read s with
  | some (t, []) => t.className
  | _ => none

/-- The classes that the descriptor of a method names. -/
def ofMethod (s : Name) : List Name :=
  match MethodType.parse s with
  | some t => t.classNames
  | none => []

/-- The class that a class constant names: it holds an internal name or the descriptor of an
array. -/
def ofClass (s : Name) : Option Name :=
  match s with
  | [] => none
  | c :: _ => if c = '['.toNat then ofField s else some s.dotted

end Descriptor

end Unjar
