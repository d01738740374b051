import Unjar.ClassFile.Cursor

/-!
The instructions of a method.

Code is a sequence of instructions without gaps.  Most have a length fixed by their opcode; a wide
prefix doubles the operands of the instruction behind it, and the two switches carry a table whose
size they give themselves, aligned to four bytes from the start of the code.

Main definitions:

* `Unjar.Instruction` — an instruction at its offset;
* `Unjar.Instruction.lengthAt` — how far the instruction at an offset reaches;
* `Unjar.Instruction.walk` — the instructions of a piece of code, and what is wrong behind them.
-/

set_option autoImplicit false

namespace Unjar

structure Instruction where
  /-- The distance of its opcode from the start of the code. -/
  pc : Nat
  opcode : Nat
  /-- The bytes after the opcode, padding included. -/
  operands : Bytes
deriving DecidableEq, Repr

/-- What the first operand of an instruction refers to. -/
inductive Operand where
  /-- A class. -/
  | type (index : Nat)
  | field (index : Nat)
  | method (index : Nat)
  /-- A dynamic call site. -/
  | callSite (index : Nat)
  /-- A constant, by an index of one byte. -/
  | shortConstant (index : Nat)
  /-- A constant, by an index of two bytes. -/
  | constant (index : Nat)
deriving DecidableEq, Repr

namespace Operand

/-- The index into the constant pool. -/
def index : Operand → Nat
  | type index | field index | method index | callSite index | shortConstant index
  | constant index => index

end Operand

namespace Instruction

/-- The number of bytes from the opcode to the end of the operands. -/
def length (i : Instruction) : Nat := i.operands.length + 1

/-! ### Opcodes -/

/-- The opcode of the instruction that adds to a local variable. -/
def iinc : Nat := 0x84

/-- The opcode of the switch over a range. -/
def tableswitch : Nat := 0xAA

/-- The opcode of the switch over listed values. -/
def lookupswitch : Nat := 0xAB

/-- The opcode of the prefix for wide operands. -/
def wide : Nat := 0xC4

/-- The length of an instruction whose opcode fixes it. -/
def fixedLength (opcode : Nat) : Option Nat :=
  if opcode ≤ 0x0F then some 1
  else if opcode = 0x10 then some 2
  else if opcode = 0x11 then some 3
  else if opcode = 0x12 then some 2
  else if opcode ≤ 0x14 then some 3
  else if opcode ≤ 0x19 then some 2
  else if opcode ≤ 0x35 then some 1
  else if opcode ≤ 0x3A then some 2
  else if opcode ≤ 0x83 then some 1
  else if opcode = iinc then some 3
  else if opcode ≤ 0x98 then some 1
  else if opcode ≤ 0xA8 then some 3
  else if opcode = 0xA9 then some 2
  else if opcode ≤ 0xAB then none
  else if opcode ≤ 0xB1 then some 1
  else if opcode ≤ 0xB8 then some 3
  else if opcode ≤ 0xBA then some 5
  else if opcode = 0xBB then some 3
  else if opcode = 0xBC then some 2
  else if opcode = 0xBD then some 3
  else if opcode ≤ 0xBF then some 1
  else if opcode ≤ 0xC1 then some 3
  else if opcode ≤ 0xC3 then some 1
  else if opcode = wide then none
  else if opcode = 0xC5 then some 4
  else if opcode ≤ 0xC7 then some 3
  else if opcode ≤ 0xC9 then some 5
  else none

/-! ### Lengths -/

/-- The padding behind the opcode of a switch: up to the next multiple of four. -/
def padding (pc : Nat) : Nat := 3 - pc % 4

/-- The signed number of four bytes at a distance into the code ahead. -/
def wordAt (pc distance : Nat) (ahead : Bytes) : Except Malformed Int :=
  match takeExactly 4 (ahead.drop distance) with
  | some (word, _) => .ok (signed 4 (bigEndian word))
  | none => .error (.switchTruncated (pc + distance))

/-- The length of a switch over a range: a default, two bounds and an offset for each value. -/
def tableswitchLength (pc : Nat) (ahead : Bytes) : Except Malformed Nat := do
  let base := 1 + padding pc
  let low ← wordAt pc (base + 4) ahead
  let high ← wordAt pc (base + 8) ahead
  if high < low then throw (.switchBounds pc low high)
  pure (base + 12 + 4 * (high - low + 1).toNat)

/-- The length of a switch over listed values: a default, their number and a pair for each. -/
def lookupswitchLength (pc : Nat) (ahead : Bytes) : Except Malformed Nat := do
  let base := 1 + padding pc
  let pairs ← wordAt pc (base + 4) ahead
  if pairs < 0 then throw (.negativePairs pc)
  pure (base + 8 + 8 * pairs.toNat)

/-- The length of the instruction that begins with `opcode` at `pc`, the code from `pc` on being
`ahead`. -/
def lengthAt (pc opcode : Nat) (ahead : Bytes) : Except Malformed Nat :=
  if opcode = tableswitch then tableswitchLength pc ahead
  else if opcode = lookupswitch then lookupswitchLength pc ahead
  else if opcode = wide then
    match ahead with
    | _ :: widened :: _ => .ok (if widened.toNat = iinc then 6 else 4)
    | _ => .error (.wideAlone pc)
  else match fixedLength opcode with
    | some length => .ok length
    | none => .error (.unknownOpcode opcode pc)

/-- The instruction that begins with the byte `first` at `pc`, and the code behind it. -/
def decode (pc : Nat) (first : UInt8) (behind : Bytes) : Except Malformed (Instruction × Bytes) := do
  let length ← lengthAt pc first.toNat (first :: behind)
  match takeExactly (length - 1) behind with
  | some (operands, rest) => pure (⟨pc, first.toNat, operands⟩, rest)
  | none => throw (.instructionOverrun first.toNat pc)

end Instruction

theorem takeExactly_length {α : Type} {n : Nat} {l front rest : List α}
    (h : takeExactly n l = some (front, rest)) : front.length = n ∧ l = front ++ rest := by
  induction n generalizing l front with
  | zero => simp_all [takeExactly]
  | succ n ih =>
    cases l with
    | nil => simp [takeExactly] at h
    | cons a l =>
      simp only [takeExactly, Option.map_eq_some_iff, Prod.mk.injEq, Prod.exists] at h
      obtain ⟨front', rest', h, rfl, rfl⟩ := h
      obtain ⟨h₁, h₂⟩ := ih h
      simp [h₁, h₂]

namespace Instruction

theorem decode_rest_length {pc : Nat} {first : UInt8} {behind rest : Bytes} {i : Instruction}
    (h : decode pc first behind = .ok (i, rest)) : rest.length ≤ behind.length := by
  unfold decode at h
  cases hl : lengthAt pc first.toNat (first :: behind) with
  | error e => simp [hl, bind, Except.bind] at h
  | ok length =>
    cases ht : takeExactly (length - 1) behind with
    | none => simp [hl, ht, bind, Except.bind, throw, throwThe, MonadExceptOf.throw] at h
    | some pair =>
      obtain ⟨operands, rest'⟩ := pair
      simp only [hl, ht, bind, Except.bind, pure, Except.pure, Except.ok.injEq, Prod.mk.injEq] at h
      obtain ⟨-, rfl⟩ := h
      have := (takeExactly_length ht).2
      simp [this]

/-! ### Walking code -/

/-- The instructions from `pc` on, the code from there being `ahead`, up to the first that is
malformed. -/
def walkFrom (pc : Nat) (ahead : Bytes) : List Instruction × Option Malformed :=
  match ahead with
  | [] => ([], none)
  | first :: behind =>
    match _h : decode pc first behind with
    | .error cause => ([], some cause)
    | .ok (i, rest) =>
      let (more, failure) := walkFrom (pc + i.length) rest
      (i :: more, failure)
  termination_by ahead.length
  decreasing_by
    have := decode_rest_length ‹_›
    simp
    omega

/-- **The instructions of a piece of code**, in order, and what is wrong behind the last of them if
they do not reach its end. -/
def walk (code : Bytes) : List Instruction × Option Malformed := walkFrom 0 code

/-! ### Operands -/

/-- The number in the first byte behind the opcode. -/
def operandU1 (i : Instruction) : Nat := bigEndian (i.operands.take 1)

/-- The number in the first two bytes behind the opcode. -/
def operandU2 (i : Instruction) : Nat := bigEndian (i.operands.take 2)

/-- What the first operand refers to, for the instructions that refer to the constant pool. -/
def operand? (i : Instruction) : Option Operand :=
  if i.opcode = 0x12 then some (.shortConstant i.operandU1)
  else if i.opcode = 0x13 then some (.constant i.operandU2)
  else if 0xB2 ≤ i.opcode ∧ i.opcode ≤ 0xB5 then some (.field i.operandU2)
  else if 0xB6 ≤ i.opcode ∧ i.opcode ≤ 0xB9 then some (.method i.operandU2)
  else if i.opcode = 0xBA then some (.callSite i.operandU2)
  else if i.opcode = 0xBB ∨ i.opcode = 0xBD ∨ i.opcode = 0xC0 ∨ i.opcode = 0xC1 ∨
      i.opcode = 0xC5 then some (.type i.operandU2)
  else none

end Instruction

end Unjar
