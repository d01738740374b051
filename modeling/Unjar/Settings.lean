import Unjar.Decimal
import Unjar.OrderedMap
import Unjar.Text.LowerCase

/-!
Settings.

The settings of a run have defaults; values come from the environment, where a list is separated by
commas, and from explicit overrides, which win.  Values arrive untyped and are checked field by
field: every complaint is reported, in the order of the fields.  Directory names are brought to a
form that ends in a slash, so that `org/spring` is never the start of `org/springframework/`, and
extensions to one that begins with a dot and is in lower case.

Main definitions:

* `Unjar.Settings`, `Unjar.Settings.default` — the settings;
* `Unjar.Settings.Value`, `Unjar.Settings.Complaint` — what is given for a field, and what can be
  wrong with it;
* `Unjar.Settings.ofValues`, `Unjar.Settings.ofEnvironment` — checked settings.
-/

set_option autoImplicit false

namespace Unjar

/-- **The settings of a run.** -/
structure Settings where
  /-- The directories whose entries are left out. -/
  excludedPrefixes : List Text
  /-- The directories beneath which an archive holds classes of its own. -/
  embeddedClassRoots : List Text
  /-- The extensions of archives, with their dots. -/
  archiveExtensions : List Text
  /-- The group of the rebuilt project. -/
  groupId : Text
  /-- The version of the rebuilt project. -/
  version : Text
  sourceEncoding : Text
  /-- The language level of its sources. -/
  languageLevel : Text
  /-- The path of the decompiler, if one is set. -/
  cfrJar : Option Text
  /-- The program that runs the decompiler. -/
  javaBin : Text
  /-- The number of seconds that the decompiler gets for one class. -/
  decompileTimeout : Float

namespace Settings

/-- The settings where nothing is given. -/
def default : Settings where
  excludedPrefixes :=
    ["META-INF/", "org/springframework/", "BOOT-INF/lib/", "WEB-INF/lib/"].map String.toList
  embeddedClassRoots := ["BOOT-INF/classes/", "WEB-INF/classes/"].map String.toList
  archiveExtensions := [".jar", ".war"].map String.toList
  groupId := "com.decompiled".toList
  version := "1.0-SNAPSHOT".toList
  sourceEncoding := "UTF-8".toList
  languageLevel := "1.8".toList
  cfrJar := none
  javaBin := "java".toList
  decompileTimeout := 60.0

/-! ### Values and complaints -/

/-- What is given for a field. -/
inductive Value where
  | null
  | bool (b : Bool)
  | number (x : Float)
  | text (t : Text)
  | list (values : List Value)
  | record (values : List (Text × Value))

/-- The fields, in the order in which they are checked. -/
inductive Field where
  | excludedPrefixes
  | embeddedClassRoots
  | archiveExtensions
  | groupId
  | version
  | sourceEncoding
  | languageLevel
  | cfrJar
  | javaBin
  | decompileTimeout
deriving DecidableEq, Repr

/-- What can be wrong with a value. -/
inductive Fault where
  /-- A list is needed. -/
  | notList
  /-- A text is needed. -/
  | notText
  /-- A number is needed. -/
  | notNumber
  /-- The text spells no number. -/
  | notNumeric
  | noExtension
  /-- The number is zero or less. -/
  | notPositive
deriving DecidableEq, Repr

/-- A fault with the field, and the place in its list, where it was found. -/
structure Complaint where
  field : Field
  /-- The place within a list. -/
  item : Option Nat
  fault : Fault
deriving DecidableEq, Repr

namespace Field

/-- All fields, in order. -/
def all : List Field :=
  [excludedPrefixes, embeddedClassRoots, archiveExtensions, groupId, version, sourceEncoding,
    languageLevel, cfrJar, javaBin, decompileTimeout]

def name : Field → Text
  | excludedPrefixes => "excluded_prefixes".toList
  | embeddedClassRoots => "embedded_class_roots".toList
  | archiveExtensions => "archive_extensions".toList
  | groupId => "group_id".toList
  | version => "version".toList
  | sourceEncoding => "source_encoding".toList
  | languageLevel => "language_level".toList
  | cfrJar => "cfr_jar".toList
  | javaBin => "java_bin".toList
  | decompileTimeout => "decompile_timeout".toList

/-- The name of the environment variable for a field. -/
def variableName (field : Field) : Text := field.name.map Char.toUpper

/-- Whether a field holds a list. -/
def isList : Field → Bool
  | excludedPrefixes | embeddedClassRoots | archiveExtensions => true
  | _ => false

end Field

namespace Fault

/-- The kind of a fault, in one word. -/
def code : Fault → Text
  | notList => "tuple_type".toList
  | notText => "string_type".toList
  | notNumber => "float_type".toList
  | notNumeric => "float_parsing".toList
  | noExtension | notPositive => "value_error".toList

/-- A fault in words. -/
def message : Fault → Text
  | notList => "Input should be a valid tuple".toList
  | notText => "Input should be a valid string".toList
  | notNumber => "Input should be a valid number".toList
  | notNumeric =>
    "Input should be a valid number, unable to parse string as a number".toList
  | noExtension => "Value error, at least one archive extension is required".toList
  | notPositive => "Value error, decompile_timeout must be positive".toList

end Fault

/-- The names of the field and of the place within it. -/
def Complaint.location (c : Complaint) : List Text :=
  c.field.name :: (c.item.map Text.ofNat).toList

/-! ### Checking -/

/-- A value or complaints. -/
abbrev Checked (α : Type) := Except (List Complaint) α

/-- A complaint about a whole field. -/
def complain {α : Type} (field : Field) (fault : Fault) : Checked α :=
  .error [⟨field, none, fault⟩]

/-- The texts of a list; every item that is none is complained of. -/
def checkItems (field : Field) : Nat → List Value → Checked (List Text)
  | _, [] => .ok []
  | i, .text t :: more => (checkItems field (i + 1) more).map (t :: ·)
  | i, _ :: more =>
    let here : Complaint := ⟨field, some i, .notText⟩
    match checkItems field (i + 1) more with
    | .ok _ => .error [here]
    | .error later => .error (here :: later)

/-- The texts of a field that holds a list. -/
def checkList (field : Field) : Value → Checked (List Text)
  | .list values => checkItems field 0 values
  | _ => complain field .notList

/-- The text of a field that holds one. -/
def checkText (field : Field) : Value → Checked Text
  | .text t => .ok t
  | _ => complain field .notText

/-- The text of a field that may be empty. -/
def checkOptionalText (field : Field) : Value → Checked (Option Text)
  | .null => .ok none
  | .text t => .ok (some t)
  | _ => complain field .notText

/-- The directories named in a list, each ending in a slash; empty names name none. -/
def normalizeDirectories (names : List Text) : List Text :=
  (names.filter fun name => !name.isEmpty).map fun name =>
    if ['/'].isSuffixOf name then name else name ++ ['/']

/-- An extension with its dot, in lower case. -/
def normalizeExtension (extension : Text) : Text :=
  match extension with
  | '.' :: _ => Text.toLower extension
  | _ => '.' :: Text.toLower extension

/-- The extensions named in a list, of which there is at least one. -/
def checkExtensions (field : Field) (value : Value) : Checked (List Text) := do
  match ← checkList field value with
  | [] => complain field .noExtension
  | extensions => pure (extensions.map normalizeExtension)

/-- Whether every underscore of a text stands alone between two other characters. -/
def hasLoneUnderscores (t : Text) : Bool :=
  t.head? != some '_' && t.getLast? != some '_' && (afterFirst? ['_', '_'] t).isNone

/-- The number that a text spells, white space around it or lone underscores within it left out. -/
def numeric (t : Text) : Option Float :=
  match Decimal.parse (Text.trimSpace t) with
  | some x => some x
  | none => if hasLoneUnderscores t then Decimal.parse (t.filter (· != '_')) else none

/-- The number of a field that holds one. -/
def checkNumber (field : Field) : Value → Checked Float
  | .number x => .ok x
  | .bool b => .ok (if b then 1.0 else 0.0)
  | .text t =>
    match numeric t with
    | some x => .ok x
    | none => complain field .notNumeric
  | _ => complain field .notNumber

/-- A number of seconds above zero. -/
def checkTimeout (field : Field) (value : Value) : Checked Float := do
  let x ← checkNumber field value
  if x ≤ 0.0 then complain field .notPositive else pure x

/-- The values given, by the name of their field. -/
abbrev Values := OrderedMap Text Value

/-- The value given for a field, checked, or its default. -/
def checkField {α : Type} (values : Values) (field : Field) (default : α)
    (check : Field → Value → Checked α) : Checked α :=
  match values.get? field.name with
  | some value => check field value
  | none => .ok default

/-- Two results, the complaints of both together. -/
def both {α β γ : Type} (combine : α → β → γ) : Checked α → Checked β → Checked γ
  | .ok a, .ok b => .ok (combine a b)
  | .ok _, .error e => .error e
  | .error e, .ok _ => .error e
  | .error e, .error e' => .error (e ++ e')

/-- One more field of a settings record under construction. -/
def apply {α β : Type} (f : Checked (α → β)) (a : Checked α) : Checked β := both (fun f a => f a) f a

/-- **Checked settings.**  Names that are no field are passed over. -/
def ofValues (values : Values) : Checked Settings :=
  let d := Settings.default
  let directories := fun field value => (checkList field value).map normalizeDirectories
  let make : Checked (List Text → List Text → List Text → Text → Text → Text → Text → Option Text →
      Text → Float → Settings) := .ok Settings.mk
  let make := apply make (checkField values .excludedPrefixes d.excludedPrefixes directories)
  let make := apply make (checkField values .embeddedClassRoots d.embeddedClassRoots directories)
  let make := apply make (checkField values .archiveExtensions d.archiveExtensions checkExtensions)
  let make := apply make (checkField values .groupId d.groupId checkText)
  let make := apply make (checkField values .version d.version checkText)
  let make := apply make (checkField values .sourceEncoding d.sourceEncoding checkText)
  let make := apply make (checkField values .languageLevel d.languageLevel checkText)
  let make := apply make (checkField values .cfrJar d.cfrJar checkOptionalText)
  let make := apply make (checkField values .javaBin d.javaBin checkText)
  apply make (checkField values .decompileTimeout d.decompileTimeout checkTimeout)

/-! ### The environment -/

/-- Environment variables by name. -/
abbrev Environment := OrderedMap Text Text

/-- The parts of a list separated by commas, without the blanks around them and without those that
are blank. -/
def listParts (t : Text) : List Text :=
  ((splitOn ',' t).map Text.strip).filter fun part => !part.isEmpty

def environmentValue (field : Field) (t : Text) : Value :=
  if field.isList then .list ((listParts t).map Value.text) else .text t

def environmentValues (environment : Environment) : Values :=
  Field.all.filterMap fun field =>
    (environment.get? field.variableName).map fun t => (field.name, environmentValue field t)

/-- The overrides that give a value. -/
def givenValues (overrides : Values) : Values :=
  overrides.filter fun (_, value) => match value with
    | .null => false
    | _ => true

/-- **Checked settings from the environment**, over which the overrides are laid. -/
def ofEnvironment (environment : Environment) (overrides : Values) : Checked Settings :=
  ofValues ((environmentValues environment).putAll (givenValues overrides))

end Settings

end Unjar
