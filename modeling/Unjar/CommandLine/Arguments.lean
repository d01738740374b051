import Unjar.Text

/-!
Arguments of a command.

The words behind the name of a command are options, values of options, and operands.  A long option
begins with two dashes and may carry its value behind an equals sign; a short one is one letter
behind a dash, several may share the dash, and whatever follows the letter of one that takes a value
is that value.  Two dashes alone end the options.

Main definitions:

* `Unjar.OptionKey` — the options that there are;
* `Unjar.Arguments`, `Unjar.Arguments.read` — the options and operands in a list of words;
* `Unjar.UsageFault` — what can be wrong with the words.
-/

set_option autoImplicit false

namespace Unjar

/-- The options that there are. -/
inductive OptionKey where
  /-- The options are to be explained. -/
  | help
  /-- More is to be reported. -/
  | verbose
  /-- The answer is to be JSON. -/
  | json
  /-- No class is to be decompiled. -/
  | noDecompile
  /-- The directory for the project. -/
  | output
  /-- The file that holds the decompiler. -/
  | cfrJar
  /-- The program that runs the decompiler. -/
  | java
deriving DecidableEq, Repr

namespace OptionKey

def takesValue : OptionKey → Bool
  | output | cfrJar | java => true
  | help | verbose | json | noDecompile => false

/-- The long form of an option. -/
def long : OptionKey → Text
  | help => "--help".toList
  | verbose => "--verbose".toList
  | json => "--json".toList
  | noDecompile => "--no-decompile".toList
  | output => "--output".toList
  | cfrJar => "--cfr-jar".toList
  | java => "--java".toList

/-- The letter of an option that has a short form. -/
def letter? : OptionKey → Option Char
  | verbose => some 'v'
  | output => some 'o'
  | _ => none

end OptionKey

/-- **What can be wrong with a command.** -/
inductive UsageFault where
  /-- There is no such option. -/
  | unknownOption (word : Text)
  /-- The option takes a value and has none. -/
  | missingValue (option : OptionKey)
  /-- The option has a value and takes none. -/
  | unexpectedValue (option : OptionKey)
  /-- No command is named. -/
  | missingCommand
  /-- There is no such command. -/
  | unknownCommand (word : Text)
  /-- The archive is not named. -/
  | missingArchive
  /-- There is one operand too many. -/
  | unexpectedOperand (word : Text)
  /-- A directory is named where a file is needed. -/
  | directory (path : Text)
  /-- A file is named where a directory is needed. -/
  | file (path : Text)
deriving DecidableEq, Repr

/-- A fault in words. -/
def UsageFault.message : UsageFault → Text
  | unknownOption word => "no such option: ".toList ++ word
  | missingValue option => "a value is missing behind ".toList ++ option.long
  | unexpectedValue option => "no value is taken by ".toList ++ option.long
  | missingCommand => "no command is given".toList
  | unknownCommand word => "no such command: ".toList ++ word
  | missingArchive => "no archive is given".toList
  | unexpectedOperand word => "too many arguments: ".toList ++ word
  | directory path => "a directory and not a file: ".toList ++ path
  | file path => "a file and not a directory: ".toList ++ path

/-- **The options and operands in a list of words.** -/
structure Arguments where
  /-- The options in order, each with its value; the value of one that takes none is empty. -/
  options : List (OptionKey × Text)
  /-- The operands in order. -/
  operands : List Text
deriving DecidableEq, Repr

namespace Arguments

def has (a : Arguments) (key : OptionKey) : Bool := a.options.any fun option => option.1 = key

/-- The value given for an option: the last, if it is given more than once. -/
def value? (a : Arguments) (key : OptionKey) : Option Text :=
  (a.options.reverse.find? fun option => option.1 = key).map Prod.snd

/-- One more option in front. -/
def withOption (a : Arguments) (key : OptionKey) (value : Text) : Arguments :=
  { a with options := (key, value) :: a.options }

/-- One more operand in front. -/
def withOperand (a : Arguments) (word : Text) : Arguments :=
  { a with operands := word :: a.operands }

/-! ### One word -/

/-- The options in one word, and the last of them if its value is the next word. -/
abbrev WordOptions := List (OptionKey × Text) × Option OptionKey

/-- The options whose letters follow a dash. -/
def readLetters (known : List OptionKey) : Text → Except UsageFault WordOptions
  | [] => .ok ([], none)
  | c :: rest =>
    match known.find? fun key => key.letter? = some c with
    | none => .error (.unknownOption ['-', c])
    | some key =>
      if !key.takesValue then
        (readLetters known rest).map fun (options, waiting) => ((key, []) :: options, waiting)
      else if rest.isEmpty then .ok ([], some key)
      else .ok ([(key, rest)], none)

/-- The form of a long option and the value behind its equals sign. -/
def splitValue (word : Text) : Text × Option Text :=
  match cutAtFirst '=' word with
  | some (form, value) => (form, some value)
  | none => (word, none)

/-- The options in a word that begins with a dash. -/
def readWord (known : List OptionKey) (word : Text) : Except UsageFault WordOptions :=
  let (form, value?) := splitValue word
  match known.find? fun key => key.long == form with
  | some key =>
    match value?, key.takesValue with
    | some value, true => .ok ([(key, value)], none)
    | none, true => .ok ([], some key)
    | none, false => .ok ([(key, [])], none)
    | some _, false => .error (.unexpectedValue key)
  | none =>
    match word with
    | '-' :: '-' :: _ => .error (.unknownOption form)
    | _ => readLetters known word.tail

/-- Whether a word is made of options; a dash alone is not. -/
def isOptionWord : Text → Bool
  | '-' :: _ :: _ => true
  | _ => false

/-! ### All words -/

/-- The options and operands in a list of words, behind an option that still lacks its value.
Unless options may follow operands, the first operand ends the options. -/
def readAfter (known : List OptionKey) (mixed : Bool) :
    Option OptionKey → List Text → Except UsageFault Arguments
  | some key, [] => .error (.missingValue key)
  | some key, word :: rest => (readAfter known mixed none rest).map (·.withOption key word)
  | none, [] => .ok ⟨[], []⟩
  | none, word :: rest =>
    if word == "--".toList then .ok ⟨[], rest⟩
    else if isOptionWord word then do
      let (options, waiting) ← readWord known word
      let behind ← readAfter known mixed waiting rest
      pure { behind with options := options ++ behind.options }
    else if mixed then (readAfter known mixed none rest).map (·.withOperand word)
    else .ok ⟨[], word :: rest⟩

/-- **The options and operands in a list of words.** -/
def read (known : List OptionKey) (mixed : Bool) (words : List Text) :
    Except UsageFault Arguments :=
  readAfter known mixed none words

end Arguments

end Unjar
