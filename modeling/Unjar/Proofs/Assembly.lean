import Unjar.Instruction
import Unjar.Proofs.ClassFile.Pool
import Unjar.Proofs.TypeDescriptor

/-!
Code by its contents.

Instructions are written here with the constants that they refer to, and laid out one behind the
other: a reference as the index of its constant, a switch with padding up to the next multiple of
four.  Walking the code finds each of them where it was laid out, and nothing else.

Main definitions:

* `Unjar.Assembly` — an instruction by its contents;
* `Unjar.Assembly.operandBytes` — the number of operand bytes, opcode by opcode;
* `Unjar.Assembly.LaidOut`, `Unjar.Assembly.Listing` — the bytes of an instruction and of a list of
  instructions;
* `Unjar.Assembly.Mentions` — the classes that an instruction names.

Main results:

* `Unjar.Assembly.fixedLength_eq` — the lengths by which code is walked are those of the table;
* `Unjar.Assembly.LaidOut.decode` — an instruction is found where it was laid out;
* `Unjar.Assembly.Listing.walk` — **walking finds the instructions of a listing.**
-/

set_option autoImplicit false

namespace Unjar

/-- An instruction by its contents. -/
inductive Assembly where
  /-- An instruction that does not refer to the constant pool. -/
  | plain (opcode : UInt8) (operands : Bytes)
  /-- An instruction that refers to a constant, with the operands behind the reference. -/
  | reference (opcode : UInt8) (target : ConstantRequest) (behind : Bytes)
  /-- Loading the constant at an index of one byte. -/
  | load (index : Nat)
  /-- Loading the constant at an index of two bytes. -/
  | loadWide (index : Nat)
  /-- An instruction with wide operands. -/
  | widened (opcode : UInt8) (operands : Bytes)
  /-- A switch over a range. -/
  | tableswitch (padding : Bytes) (fallback low high : Int) (offsets : List Int)
  /-- A switch over listed values. -/
  | lookupswitch (padding : Bytes) (fallback : Int) (pairs : List (Int × Int))
deriving DecidableEq, Repr

namespace Assembly

/-! ### Opcodes -/

/-- The number of operand bytes by opcode, sixteen to a row: none for the switches, for the wide
prefix and for what is no opcode. -/
def operandTable : List (List (Option Nat)) :=
  let o := some 0
  let i := some 1
  let s := some 2
  let w := some 4
  [[o, o, o, o, o, o, o, o, o, o, o, o, o, o, o, o],
   [i, s, i, s, s, i, i, i, i, i, o, o, o, o, o, o],
   [o, o, o, o, o, o, o, o, o, o, o, o, o, o, o, o],
   [o, o, o, o, o, o, i, i, i, i, i, o, o, o, o, o],
   [o, o, o, o, o, o, o, o, o, o, o, o, o, o, o, o],
   [o, o, o, o, o, o, o, o, o, o, o, o, o, o, o, o],
   [o, o, o, o, o, o, o, o, o, o, o, o, o, o, o, o],
   [o, o, o, o, o, o, o, o, o, o, o, o, o, o, o, o],
   [o, o, o, o, s, o, o, o, o, o, o, o, o, o, o, o],
   [o, o, o, o, o, o, o, o, o, s, s, s, s, s, s, s],
   [s, s, s, s, s, s, s, s, s, i, none, none, o, o, o, o],
   [o, o, s, s, s, s, s, s, s, w, w, s, i, s, o, o],
   [s, s, o, o, none, some 3, s, s, w, w]]

/-- The number of operand bytes of an opcode. -/
def operandBytes (opcode : UInt8) : Option Nat := (operandTable.flatten[opcode.toNat]?).join

/-- The lengths by which code is walked are those of the table. -/
theorem fixedLength_eq (opcode : UInt8) :
    Instruction.fixedLength opcode.toNat = (operandBytes opcode).map (· + 1) := by
  have htable : ∀ n < 256, Instruction.fixedLength n =
      ((operandTable.flatten[n]?).join).map (· + 1) := by
    decide +kernel
  exact htable opcode.toNat opcode.toNat_lt

/-- The opcodes that refer to the constant pool. -/
def referring : List UInt8 :=
  [0x12, 0x13, 0xB2, 0xB3, 0xB4, 0xB5, 0xB6, 0xB7, 0xB8, 0xB9, 0xBA, 0xBB, 0xBD, 0xC0, 0xC1, 0xC5]

/-- The constants that an opcode refers to: a class, a field, a method or a dynamic call site. -/
def RefersTo (opcode : UInt8) : ConstantRequest → Prop
  | .classRef _ => opcode ∈ [0xBB, 0xBD, 0xC0, 0xC1, 0xC5]
  | .memberRef .field _ _ _ => opcode ∈ [0xB2, 0xB3, 0xB4, 0xB5]
  | .memberRef .method _ _ _ | .memberRef .interfaceMethod _ _ _ =>
    opcode ∈ [0xB6, 0xB7, 0xB8, 0xB9]
  | .invokeDynamic _ _ _ => opcode = 0xBA
  | _ => False

instance (opcode : UInt8) : (target : ConstantRequest) → Decidable (RefersTo opcode target)
  | .classRef _ => inferInstanceAs (Decidable (_ ∈ _))
  | .memberRef .field _ _ _ => inferInstanceAs (Decidable (_ ∈ _))
  | .memberRef .method _ _ _ | .memberRef .interfaceMethod _ _ _ =>
    inferInstanceAs (Decidable (_ ∈ _))
  | .invokeDynamic _ _ _ => inferInstanceAs (Decidable (_ = _))
  | .utf8 _ | .string _ | .integer _ | .long _ | .nameAndType _ _ =>
    inferInstanceAs (Decidable False)

/-! ### Laying out -/

/-- A number in four bytes. -/
def word (n : Int) : Bytes := bytesOfInt 4 n

/-- The bounds and the counts of the switches are signed numbers of four bytes. -/
def IsWord (n : Int) : Prop := -0x80000000 ≤ n ∧ n < 0x80000000

instance (n : Int) : Decidable (IsWord n) := inferInstanceAs (Decidable (_ ∧ _))

/-- Padding reaches from behind an opcode to the next multiple of four. -/
def Pads (pc : Nat) (padding : Bytes) : Prop :=
  padding.length < 4 ∧ (pc + 1 + padding.length) % 4 = 0

instance (pc : Nat) (padding : Bytes) : Decidable (Pads pc padding) :=
  inferInstanceAs (Decidable (_ ∧ _))

/-- **The bytes of an instruction** at an offset of the code, given the entries of a builder. -/
inductive LaidOut (entries : List Entry) (pc : Nat) : Assembly → Bytes → Prop
  | plain {opcode : UInt8} {operands : Bytes} (hfree : opcode ∉ referring)
      (hsize : operandBytes opcode = some operands.length) :
      LaidOut entries pc (.plain opcode operands) (opcode :: operands)
  | reference {opcode : UInt8} {target : ConstantRequest} {behind : Bytes} {i : Nat}
      (hrefers : RefersTo opcode target) (hindex : target.indexIn entries = some i)
      (hfits : i < 0x10000) (hsize : operandBytes opcode = some (2 + behind.length)) :
      LaidOut entries pc (.reference opcode target behind) (opcode :: (bytesOfNat 2 i ++ behind))
  | load {index : Nat} (hfits : index < 0x100) :
      LaidOut entries pc (.load index) (0x12 :: bytesOfNat 1 index)
  | loadWide {index : Nat} (hfits : index < 0x10000) :
      LaidOut entries pc (.loadWide index) (0x13 :: bytesOfNat 2 index)
  | widened {opcode : UInt8} {operands : Bytes}
      (hsize : operands.length = if opcode = 0x84 then 4 else 2) :
      LaidOut entries pc (.widened opcode operands) (0xC4 :: (opcode :: operands))
  | tableswitch {padding : Bytes} {fallback low high : Int} {offsets : List Int}
      (hpads : Pads pc padding) (hlow : IsWord low) (hhigh : IsWord high) (hle : low ≤ high)
      (hcount : offsets.length = high - low + 1) :
      LaidOut entries pc (.tableswitch padding fallback low high offsets)
        (0xAA :: (padding ++ word fallback ++ word low ++ word high ++ offsets.flatMap word))
  | lookupswitch {padding : Bytes} {fallback : Int} {pairs : List (Int × Int)}
      (hpads : Pads pc padding) (hcount : IsWord pairs.length) :
      LaidOut entries pc (.lookupswitch padding fallback pairs)
        (0xAB :: (padding ++ word fallback ++ word pairs.length ++
          pairs.flatMap fun pair => word pair.1 ++ word pair.2))

/-- **The bytes of a list of instructions**, one behind the other from an offset on. -/
inductive Listing (entries : List Entry) : Nat → List Assembly → Bytes → Prop
  | nil (pc : Nat) : Listing entries pc [] []
  | cons {pc : Nat} {a : Assembly} {more : List Assembly} {front back : Bytes}
      (hfirst : LaidOut entries pc a front)
      (hmore : Listing entries (pc + front.length) more back) :
      Listing entries pc (a :: more) (front ++ back)

/-! ### Walking -/

theorem word_length (n : Int) : (word n).length = 4 := bytesOfNat_length 4 _

theorem wordAt_append {n : Int} (pc : Nat) (front rest : Bytes) (h : IsWord n) :
    Instruction.wordAt pc front.length (front ++ (word n ++ rest)) = .ok n := by
  have hfield : signedField 4 n = .ok (word n) := by
    unfold signedField
    exact if_pos h
  have htake := takeExactly_append_length (word n) rest
  rw [word_length] at htake
  rw [Instruction.wordAt, List.drop_left, htake]
  exact congrArg _ (signed_bigEndian (by decide) hfield)

/-- An instruction is found whose length is right. -/
theorem decode_append {pc : Nat} {opcode : UInt8} {operands rest : Bytes}
    (h : Instruction.lengthAt pc opcode.toNat (opcode :: (operands ++ rest)) =
      .ok (operands.length + 1)) :
    Instruction.decode pc opcode (operands ++ rest) =
      .ok (⟨pc, opcode.toNat, operands⟩, rest) := by
  unfold Instruction.decode
  rw [h]
  simp only [bind, Except.bind, Nat.add_sub_cancel, takeExactly_append_length]
  rfl

theorem lengthAt_of_operandBytes {pc n : Nat} {opcode : UInt8} {ahead : Bytes}
    (h : operandBytes opcode = some n) :
    Instruction.lengthAt pc opcode.toNat ahead = .ok (n + 1) := by
  have hnone {k : Nat} (hk : (operandTable.flatten[k]?).join = none) : opcode.toNat ≠ k := by
    rintro rfl
    rw [operandBytes, hk] at h
    cases h
  have htable := hnone (k := Instruction.tableswitch) (by decide)
  have hlookup := hnone (k := Instruction.lookupswitch) (by decide)
  have hwide := hnone (k := Instruction.wide) (by decide)
  unfold Instruction.lengthAt
  rw [if_neg htable, if_neg hlookup, if_neg hwide, fixedLength_eq, h]
  rfl

theorem Pads.length_eq {pc : Nat} {padding : Bytes} (h : Pads pc padding) :
    padding.length = Instruction.padding pc := by
  obtain ⟨hlt, halign⟩ := h
  unfold Instruction.padding
  omega

theorem tableswitchLength_eq {pc : Nat} {padding : Bytes} {low high : Int} (fallback : Int)
    (rest : Bytes) (hpads : Pads pc padding) (hlow : IsWord low) (hhigh : IsWord high)
    (hle : low ≤ high) :
    Instruction.tableswitchLength pc
      (0xAA :: (padding ++ (word fallback ++ (word low ++ (word high ++ rest))))) =
      .ok (1 + padding.length + 12 + 4 * (high - low + 1).toNat) := by
  have hlow_eq := wordAt_append pc (0xAA :: (padding ++ word fallback))
    (word high ++ rest) hlow
  have hhigh_eq := wordAt_append pc (0xAA :: (padding ++ (word fallback ++ word low)))
    rest hhigh
  have hlow_at : (0xAA :: (padding ++ word fallback)).length = 1 + padding.length + 4 := by
    simp only [List.length_cons, List.length_append, word_length]
    omega
  have hhigh_at : (0xAA :: (padding ++ (word fallback ++ word low))).length =
      1 + padding.length + 8 := by
    simp only [List.length_cons, List.length_append, word_length]
    omega
  rw [hlow_at] at hlow_eq
  rw [hhigh_at] at hhigh_eq
  simp only [List.cons_append, List.append_assoc] at hlow_eq hhigh_eq
  unfold Instruction.tableswitchLength
  rw [← hpads.length_eq]
  simp only [hlow_eq, hhigh_eq, bind, Except.bind]
  rw [if_neg (by omega)]
  rfl

theorem lookupswitchLength_eq {pc : Nat} {padding : Bytes} {count : Nat} (fallback : Int)
    (rest : Bytes) (hpads : Pads pc padding) (hcount : IsWord count) :
    Instruction.lookupswitchLength pc
      (0xAB :: (padding ++ (word fallback ++ (word count ++ rest)))) =
      .ok (1 + padding.length + 8 + 8 * count) := by
  have hcount_eq := wordAt_append pc (0xAB :: (padding ++ word fallback)) rest hcount
  have hcount_at : (0xAB :: (padding ++ word fallback)).length = 1 + padding.length + 4 := by
    simp only [List.length_cons, List.length_append, word_length]
    omega
  rw [hcount_at] at hcount_eq
  simp only [List.cons_append, List.append_assoc] at hcount_eq
  unfold Instruction.lookupswitchLength
  rw [← hpads.length_eq]
  simp only [hcount_eq, bind, Except.bind]
  rw [if_neg (by omega)]
  rfl

theorem flatMap_length {α : Type} {f : α → Bytes} {n : Nat} (h : ∀ a, (f a).length = n)
    (l : List α) : (l.flatMap f).length = n * l.length := by
  induction l with
  | nil => rfl
  | cons a l ih =>
      rw [List.flatMap_cons, List.length_append, h, ih, List.length_cons, Nat.mul_succ,
        Nat.add_comm]

/-- **An instruction is found where it was laid out.** -/
theorem LaidOut.decode {entries : List Entry} {pc : Nat} {a : Assembly} {bytes : Bytes}
    (h : LaidOut entries pc a bytes) :
    ∃ opcode operands, bytes = opcode :: operands ∧ ∀ rest,
      Instruction.decode pc opcode (operands ++ rest) =
        .ok (⟨pc, opcode.toNat, operands⟩, rest) := by
  cases h with
  | plain hfree hsize =>
      exact ⟨_, _, rfl, fun rest => decode_append (lengthAt_of_operandBytes hsize)⟩
  | reference hrefers hindex hfits hsize =>
      refine ⟨_, _, rfl, fun rest => decode_append ?_⟩
      rw [lengthAt_of_operandBytes hsize, List.length_append, bytesOfNat_length]
  | load hfits =>
      refine ⟨_, _, rfl, fun rest => decode_append ?_⟩
      rw [lengthAt_of_operandBytes (n := 1) rfl, bytesOfNat_length]
  | loadWide hfits =>
      refine ⟨_, _, rfl, fun rest => decode_append ?_⟩
      rw [lengthAt_of_operandBytes (n := 2) rfl, bytesOfNat_length]
  | @widened widened operands hsize =>
      refine ⟨_, _, rfl, fun rest => decode_append ?_⟩
      -- the length depends on the opcode that is widened, which is the first operand
      unfold Instruction.lengthAt
      rw [if_neg (by decide), if_neg (by decide), if_pos (by rfl)]
      simp only [List.cons_append, List.length_cons, hsize, ← UInt8.toNat_inj]
      by_cases hiinc : widened.toNat = Instruction.iinc
      · rw [if_pos hiinc, if_pos (by exact hiinc)]
      · rw [if_neg hiinc, if_neg (by exact hiinc)]
  | @tableswitch padding fallback low high offsets hpads hlow hhigh hle hcount =>
      refine ⟨_, _, rfl, fun rest => decode_append ?_⟩
      have hlength := tableswitchLength_eq fallback (offsets.flatMap word ++ rest) hpads hlow hhigh
        hle
      have hoffsets := flatMap_length word_length offsets
      unfold Instruction.lengthAt
      rw [if_pos (by rfl)]
      simp only [List.append_assoc, List.length_append, word_length, hoffsets]
      rw [hlength]
      congr 1
      omega
  | @lookupswitch padding fallback pairs hpads hcount =>
      refine ⟨_, _, rfl, fun rest => decode_append ?_⟩
      have hlength := lookupswitchLength_eq fallback
        ((pairs.flatMap fun pair => word pair.1 ++ word pair.2) ++ rest) hpads hcount
      have hpair (pair : Int × Int) : (word pair.1 ++ word pair.2).length = 8 := by
        rw [List.length_append, word_length, word_length]
      have hpairs := flatMap_length hpair pairs
      unfold Instruction.lengthAt
      rw [if_neg (by decide), if_pos (by rfl)]
      simp only [List.append_assoc, List.length_append, word_length, hpairs]
      rw [hlength]
      congr 1
      omega

/-! ### Operands -/

/-- What a reference to a constant at an index refers to. -/
def referenceTo (index : Nat) : ConstantRequest → Option Operand
  | .classRef _ => some (.type index)
  | .memberRef .field _ _ _ => some (.field index)
  | .memberRef .method _ _ _ | .memberRef .interfaceMethod _ _ _ => some (.method index)
  | .invokeDynamic _ _ _ => some (.callSite index)
  | _ => none

/-- An operand is that of an instruction. -/
def OperandIs (entries : List Entry) (operand : Option Operand) : Assembly → Prop
  | .reference _ target _ =>
    ∃ index, target.indexIn entries = some index ∧ operand = referenceTo index target
  | .load index => operand = some (.shortConstant index)
  | .loadWide index => operand = some (.constant index)
  | _ => operand = none

theorem bigEndian_take {size n : Nat} (behind : Bytes) (h : n < valuesOfBits (8 * size)) :
    bigEndian ((bytesOfNat size n ++ behind).take size) = n := by
  rw [List.take_left' (bytesOfNat_length size n), bigEndian_bytesOfNat h]

theorem operand?_of_not_mem {pc : Nat} {opcode : UInt8} {operands : Bytes}
    (h : opcode ∉ referring) : Instruction.operand? ⟨pc, opcode.toNat, operands⟩ = none := by
  simp only [referring, List.mem_cons, List.not_mem_nil, or_false, not_or, ← UInt8.toNat_inj,
    UInt8.reduceToNat] at h
  unfold Instruction.operand?
  generalize opcode.toNat = n at h
  rw [if_neg (show ¬n = 0x12 by omega), if_neg (show ¬n = 0x13 by omega),
    if_neg (show ¬(0xB2 ≤ n ∧ n ≤ 0xB5) by omega), if_neg (show ¬(0xB6 ≤ n ∧ n ≤ 0xB9) by omega),
    if_neg (show ¬n = 0xBA by omega),
    if_neg (show ¬(n = 0xBB ∨ n = 0xBD ∨ n = 0xC0 ∨ n = 0xC1 ∨ n = 0xC5) by omega)]

theorem operand?_of_refersTo {pc i : Nat} {opcode : UInt8} {target : ConstantRequest}
    (behind : Bytes) (hrefers : RefersTo opcode target) (hfits : i < 0x10000) :
    Instruction.operand? ⟨pc, opcode.toNat, bytesOfNat 2 i ++ behind⟩ = referenceTo i target := by
  have hindex (n : Nat) : Instruction.operandU2 ⟨pc, n, bytesOfNat 2 i ++ behind⟩ = i :=
    bigEndian_take behind hfits
  have hkind (make : Nat → Operand) (n : Nat) :
      some (make (Instruction.operandU2 ⟨pc, n, bytesOfNat 2 i ++ behind⟩)) = some (make i) := by
    rw [hindex]
  -- the opcodes of each kind of constant, one by one
  unfold RefersTo at hrefers
  split at hrefers
  · simp only [List.mem_cons, List.not_mem_nil, or_false] at hrefers
    rcases hrefers with rfl | rfl | rfl | rfl | rfl <;> exact hkind .type _
  · simp only [List.mem_cons, List.not_mem_nil, or_false] at hrefers
    rcases hrefers with rfl | rfl | rfl | rfl <;> exact hkind .field _
  · simp only [List.mem_cons, List.not_mem_nil, or_false] at hrefers
    rcases hrefers with rfl | rfl | rfl | rfl <;> exact hkind .method _
  · simp only [List.mem_cons, List.not_mem_nil, or_false] at hrefers
    rcases hrefers with rfl | rfl | rfl | rfl <;> exact hkind .method _
  · subst hrefers
    exact hkind .callSite _
  · exact False.elim hrefers

/-- The operand of an instruction that was laid out. -/
theorem LaidOut.operand {entries : List Entry} {pc : Nat} {a : Assembly} {opcode : UInt8}
    {operands : Bytes} (h : LaidOut entries pc a (opcode :: operands)) :
    OperandIs entries (Instruction.operand? ⟨pc, opcode.toNat, operands⟩) a := by
  cases h with
  | plain hfree hsize => exact operand?_of_not_mem hfree
  | reference hrefers hindex hfits hsize =>
      exact ⟨_, hindex, operand?_of_refersTo _ hrefers hfits⟩
  | @load index hfits =>
      have hindex : bigEndian ((bytesOfNat 1 index ++ []).take 1) = index :=
        bigEndian_take [] hfits
      rw [List.append_nil] at hindex
      exact congrArg (fun n => some (Operand.shortConstant n)) hindex
  | @loadWide index hfits =>
      have hindex : bigEndian ((bytesOfNat 2 index ++ []).take 2) = index :=
        bigEndian_take [] hfits
      rw [List.append_nil] at hindex
      exact congrArg (fun n => some (Operand.constant n)) hindex
  | widened hsize => rfl
  | tableswitch hpads hlow hhigh hle hcount => rfl
  | lookupswitch hpads hcount => rfl

/-- **Walking finds the instructions of a listing**, and nothing is wrong behind them. -/
theorem Listing.walk {entries : List Entry} {pc : Nat} {listing : List Assembly} {bytes : Bytes}
    (h : Listing entries pc listing bytes) :
    ∃ instructions, Instruction.walkFrom pc bytes = (instructions, none) ∧
      List.Forall₂ (fun (a : Assembly) (i : Instruction) => OperandIs entries i.operand? a)
        listing instructions := by
  induction h with
  | nil pc =>
      rw [Instruction.walkFrom]
      exact ⟨[], rfl, .nil⟩
  | @cons pc a more front back hfirst hmore ih =>
      obtain ⟨instructions, hwalk, hfound⟩ := ih
      obtain ⟨opcode, operands, rfl, hdecode⟩ := hfirst.decode
      refine ⟨⟨pc, opcode.toNat, operands⟩ :: instructions, ?_, .cons hfirst.operand hfound⟩
      rw [List.cons_append, Instruction.walkFrom]
      split
      · next cause herror =>
        rw [hdecode back] at herror
        cases herror
      · next i rest hok =>
        rw [hdecode back] at hok
        cases hok
        have hlength : Instruction.length ⟨pc, opcode.toNat, operands⟩ =
            (opcode :: operands).length := rfl
        rw [hlength, hwalk]

end Assembly

end Unjar
