import Unjar.Text

/-!
What can be wrong with a class file.

Every inconsistency of a class file, of its constant pool or of the code of a method is one
constructor of `Malformed`; `Malformed.message` is the only place where the causes are put in
words.
-/

set_option autoImplicit false

namespace Unjar

/-- **Why a class file is malformed.** -/
inductive Malformed where
  /-- More bytes are needed at an offset than are left. -/
  | truncated (size : Int) (offset : Nat) (left : Int)
  /-- The file does not begin with the magic number. -/
  | badMagic
  /-- The constant pool announces no slot at all. -/
  | emptyPool
  /-- No constant has this tag. -/
  | unknownTag (tag index : Nat)
  /-- The bytes of a string are no encoding of a name. -/
  | invalidName
  /-- The second slot of the last constant lies beyond the pool. -/
  | wideOverrun
  /-- No slot has this index. -/
  | indexOutOfRange (index : Int)
  /-- The slot holds no constant, or one of another kind. -/
  | wrongTag (index : Int) (expected : List Nat) (found : Option Nat)
  /-- Bytes follow the last attribute of the class. -/
  | trailingBytes (count : Nat)
  /-- The code ends within the bounds of a switch. -/
  | switchTruncated (offset : Nat)
  /-- The bounds of a table switch are in the wrong order. -/
  | switchBounds (pc : Nat) (low high : Int)
  /-- A lookup switch announces a negative number of pairs. -/
  | negativePairs (pc : Nat)
  /-- The code ends after a wide prefix. -/
  | wideAlone (pc : Nat)
  /-- No instruction has this opcode. -/
  | unknownOpcode (opcode pc : Nat)
  /-- The code ends within an instruction. -/
  | instructionOverrun (opcode pc : Nat)
deriving DecidableEq, Repr

namespace Malformed

/-- A list of tags: a comma follows a single one. -/
def tagList : List Nat → Text
  | [tag] => '(' :: Text.ofNat tag ++ ",)".toList
  | tags => '(' :: joinWith ", ".toList (tags.map Text.ofNat) ++ [')']

/-- The tag found in a slot, if any. -/
def tagFound : Option Nat → Text
  | none => "None".toList
  | some tag => Text.ofNat tag

/-- A cause in words. -/
def message : Malformed → Text
  | truncated size offset left =>
    s!"truncated class file: need {size} bytes at offset {offset}, have {left}".toList
  | badMagic => "bad magic number".toList
  | emptyPool => "constant_pool_count must be at least 1".toList
  | unknownTag tag index => s!"unknown constant pool tag {tag} at index {index}".toList
  | invalidName => "invalid modified UTF-8 in constant pool".toList
  | wideOverrun => "wide constant overruns constant_pool_count".toList
  | indexOutOfRange index => s!"constant pool index {index} out of range".toList
  | wrongTag index expected found =>
    s!"constant pool index {index}: expected tag ".toList ++ tagList expected ++
      ", found ".toList ++ tagFound found
  | trailingBytes count => s!"{count} trailing bytes after class attributes".toList
  | switchTruncated offset => s!"switch operands truncated at offset {offset}".toList
  | switchBounds pc low high => s!"tableswitch at {pc}: high {high} < low {low}".toList
  | negativePairs pc => s!"lookupswitch at {pc}: negative npairs".toList
  | wideAlone pc => s!"wide at {pc} has no operand opcode".toList
  | unknownOpcode opcode pc =>
    "unknown opcode 0x".toList ++ Text.hex 2 opcode ++ s!" at offset {pc}".toList
  | instructionOverrun opcode pc =>
    "instruction 0x".toList ++ Text.hex 2 opcode ++ s!" at {pc} overruns code".toList

end Malformed

end Unjar
