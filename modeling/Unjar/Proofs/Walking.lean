import Mathlib.Data.List.Induction
import Mathlib.Data.List.Infix
import Unjar.Proofs.Assembly

/-!
The instructions of any piece of code.

Code is a sequence of encodings without gaps.  What one instruction is encoded as is stated apart
from walking: an opcode with the operands that it fixes, a wide prefix with what it widens, or a
switch with its padding and its table.  Walking finds the sequence if there is one; otherwise it goes
as far as any sequence goes, and stops with what is wrong.  Both rest on one step: what is decoded at
an offset is what is encoded there.

Main definitions:

* `Unjar.Instruction.IsEncoding`, `Unjar.Instruction.AreEncoding` — **the bytes of an instruction**,
  and of a sequence of instructions;
* `Unjar.Instruction.StandsIn` — an instruction stands in code, behind those before it.

Main results:

* `Unjar.Instruction.IsEncoding.decode`, `Unjar.Instruction.isEncoding_of_decode` — one step;
* `Unjar.Instruction.AreEncoding.walkFrom`, `Unjar.Instruction.areEncoding_walkFrom` — a whole walk;
* `Unjar.Instruction.walk_of_encodings` — **walking accepts exactly the sequences of encodings.**
-/

set_option autoImplicit false

namespace Unjar

/-! ### Numbers and blocks -/

theorem bigEndian_lt (bytes : Bytes) : bigEndian bytes < valuesOfBits (8 * bytes.length) := by
  induction bytes using List.reverseRecOn with
  | nil => decide
  | append_singleton bytes b ih =>
      have hpow : valuesOfBits (8 * (bytes.length + 1)) =
          valuesOfBits (8 * bytes.length) * 256 := by
        simp [valuesOfBits, Nat.mul_add, Nat.pow_add]
      have hb := b.toNat_lt
      rw [bigEndian_append_singleton, List.length_append, List.length_singleton, hpow]
      omega

/-- Bytes are those of the number that they spell. -/
theorem bytesOfNat_bigEndian (bytes : Bytes) :
    bytesOfNat bytes.length (bigEndian bytes) = bytes := by
  induction bytes using List.reverseRecOn with
  | nil => rfl
  | append_singleton bytes b ih =>
      have hb := b.toNat_lt
      have hdiv : (bigEndian bytes * 256 + b.toNat) / 256 = bigEndian bytes := by omega
      have hmod : (bigEndian bytes * 256 + b.toNat) % 256 = b.toNat := by omega
      rw [bigEndian_append_singleton, List.length_append, List.length_singleton, bytesOfNat, hdiv,
        hmod, ih, UInt8.ofNat_toNat]

theorem exists_eq_append {bytes : Bytes} {m n : Nat} (h : bytes.length = m + n) :
    ∃ front back, bytes = front ++ back ∧ front.length = m ∧ back.length = n :=
  ⟨bytes.take m, bytes.drop m, (List.take_append_drop m bytes).symm, by simp [h], by simp [h]⟩

/-- What falls into blocks of one size is a list of what the blocks stand for. -/
theorem exists_flatMap_eq {α : Type} {f : α → Bytes} {size : Nat}
    (hf : ∀ block : Bytes, block.length = size → ∃ a, f a = block) {count : Nat} {bytes : Bytes}
    (h : bytes.length = size * count) :
    ∃ l : List α, l.length = count ∧ l.flatMap f = bytes := by
  induction count generalizing bytes with
  | zero =>
      obtain rfl : bytes = [] := List.eq_nil_of_length_eq_zero h
      exact ⟨[], rfl, rfl⟩
  | succ count ih =>
      have hsplit : bytes.length = size + size * count := by rw [h, Nat.mul_succ, Nat.add_comm]
      obtain ⟨block, rest, rfl, hblock, hrest⟩ := exists_eq_append hsplit
      obtain ⟨a, rfl⟩ := hf block hblock
      obtain ⟨l, hl, rfl⟩ := ih hrest
      exact ⟨a :: l, by rw [List.length_cons, hl], rfl⟩

namespace Assembly

/-- Any four bytes are a number. -/
theorem exists_word {block : Bytes} (h : block.length = 4) : ∃ n, IsWord n ∧ word n = block := by
  have hlt := bigEndian_lt block
  have hblock := bytesOfNat_bigEndian block
  rw [h] at hlt hblock
  have hturn : valuesOfBits (8 * 4) = 0x100000000 := rfl
  have hhalf : valuesOfBits (8 * 4 - 1) = 0x80000000 := rfl
  rw [hturn] at hlt
  -- a number below zero has the bytes of the one a whole turn above it
  have hsigned : IsWord (signed 4 (bigEndian block)) ∧
      (signed 4 (bigEndian block) % (0x100000000 : Nat)).toNat = bigEndian block := by
    unfold IsWord signed
    rw [hturn, hhalf]
    split <;> omega
  refine ⟨signed 4 (bigEndian block), hsigned.1, ?_⟩
  rw [word, bytesOfInt, hturn, hsigned.2, hblock]

/-- Any eight bytes are two numbers. -/
theorem exists_pair {block : Bytes} (h : block.length = 8) :
    ∃ pair : Int × Int, word pair.1 ++ word pair.2 = block := by
  obtain ⟨front, back, rfl, hfront, hback⟩ := exists_eq_append (m := 4) (n := 4) h
  obtain ⟨a, -, rfl⟩ := exists_word hfront
  obtain ⟨b, -, rfl⟩ := exists_word hback
  exact ⟨(a, b), rfl⟩

end Assembly

namespace Operand

/-- The number of bytes of the index. -/
def size : Operand → Nat
  | shortConstant _ => 1
  | _ => 2

end Operand

namespace Instruction

open Assembly

/-! ### Encodings -/

/-- **The bytes of one instruction** at an offset of the code. -/
inductive IsEncoding (pc : Nat) : Bytes → Prop
  /-- An opcode that fixes the number of its operands. -/
  | fixed {opcode : UInt8} {operands : Bytes} (h : operandBytes opcode = some operands.length) :
      IsEncoding pc (opcode :: operands)
  /-- The wide form of adding to a local variable. -/
  | wideIncrement {operands : Bytes} (h : operands.length = 4) :
      IsEncoding pc (0xC4 :: 0x84 :: operands)
  /-- The wide form of anything else. -/
  | wide {opcode : UInt8} {operands : Bytes} (hother : opcode ≠ 0x84) (h : operands.length = 2) :
      IsEncoding pc (0xC4 :: opcode :: operands)
  /-- A switch over a range: a default, two bounds and an offset for each value between them. -/
  | tableswitch {padding : Bytes} {fallback low high : Int} {offsets : List Int}
      (hpads : Pads pc padding) (hlow : IsWord low) (hhigh : IsWord high) (hle : low ≤ high)
      (hcount : offsets.length = high - low + 1) :
      IsEncoding pc
        (0xAA :: (padding ++ word fallback ++ word low ++ word high ++ offsets.flatMap word))
  /-- A switch over listed values: a default, their number and a pair for each. -/
  | lookupswitch {padding : Bytes} {fallback : Int} {pairs : List (Int × Int)}
      (hpads : Pads pc padding) (hcount : IsWord pairs.length) :
      IsEncoding pc (0xAB :: (padding ++ word fallback ++ word pairs.length ++
        pairs.flatMap fun pair => word pair.1 ++ word pair.2))

/-- **The bytes of a sequence of instructions** from an offset on, each where the one before it
ends. -/
inductive AreEncoding : Nat → List Instruction → Bytes → Prop
  | nil (pc : Nat) : AreEncoding pc [] []
  | cons {pc : Nat} {opcode : UInt8} {operands back : Bytes} {more : List Instruction}
      (hfirst : IsEncoding pc (opcode :: operands))
      (hmore : AreEncoding (pc + (operands.length + 1)) more back) :
      AreEncoding pc (⟨pc, opcode.toNat, operands⟩ :: more) (opcode :: operands ++ back)

variable {pc : Nat} {first opcode : UInt8} {ahead behind front back rest operands bytes : Bytes}
  {i : Instruction} {instructions : List Instruction}

/-! ### One step -/

/-- **What is encoded at an offset is decoded there**, whatever follows it. -/
theorem IsEncoding.decode (h : IsEncoding pc bytes) :
    ∃ opcode operands, bytes = opcode :: operands ∧ ∀ rest,
      decode pc opcode (operands ++ rest) = .ok (⟨pc, opcode.toNat, operands⟩, rest) := by
  cases h with
  | fixed h => exact ⟨_, _, rfl, fun rest => decode_append (lengthAt_of_operandBytes h)⟩
  | wideIncrement h =>
      have hlaid : LaidOut [] pc (.widened 0x84 _) _ := .widened h
      exact hlaid.decode
  | wide hother h =>
      have hlaid : LaidOut [] pc (.widened _ _) _ := .widened (h.trans (if_neg hother).symm)
      exact hlaid.decode
  | @tableswitch padding fallback low high offsets hpads hlow hhigh hle hcount =>
      have hlaid : LaidOut [] pc (.tableswitch padding fallback low high offsets) _ :=
        .tableswitch hpads hlow hhigh hle hcount
      exact hlaid.decode
  | @lookupswitch padding fallback pairs hpads hcount =>
      have hlaid : LaidOut [] pc (.lookupswitch padding fallback pairs) _ :=
        .lookupswitch hpads hcount
      exact hlaid.decode

theorem decode_eq_ok (h : decode pc first behind = .ok (i, rest)) :
    ∃ length, lengthAt pc first.toNat (first :: behind) = .ok length ∧
      i = ⟨pc, first.toNat, i.operands⟩ ∧ behind = i.operands ++ rest ∧
      i.operands.length = length - 1 := by
  unfold decode at h
  obtain ⟨length, hlength, h⟩ := bind_eq_ok.mp h
  split at h
  · next found rest' htake =>
    cases h
    obtain ⟨hsize, hbehind⟩ := takeExactly_length htake
    exact ⟨length, hlength, rfl, hbehind, hsize⟩
  · cases h

/-- The length at an offset depends on the kind of the opcode there. -/
theorem lengthAt_eq_ok {length : Nat} (h : lengthAt pc first.toNat ahead = .ok length) :
    first = 0xAA ∧ tableswitchLength pc ahead = .ok length ∨
      first = 0xAB ∧ lookupswitchLength pc ahead = .ok length ∨
      first = 0xC4 ∧ (∃ opcode widened rest, ahead = opcode :: widened :: rest ∧
        length = if widened = 0x84 then 6 else 4) ∨
      ∃ n, operandBytes first = some n ∧ length = n + 1 := by
  unfold lengthAt at h
  split at h
  · next htable => exact .inl ⟨UInt8.toNat_inj.mp htable, h⟩
  · split at h
    · next hlookup => exact .inr (.inl ⟨UInt8.toNat_inj.mp hlookup, h⟩)
    · split at h
      · next hwide =>
        split at h
        · next opcode widened rest =>
          cases h
          refine .inr (.inr (.inl ⟨UInt8.toNat_inj.mp hwide, opcode, widened, rest, rfl, ?_⟩))
          simp only [← UInt8.toNat_inj]
          rfl
        · cases h
      · split at h
        · next length' hfixed =>
          cases h
          rw [fixedLength_eq, Option.map_eq_some_iff] at hfixed
          obtain ⟨n, hn, rfl⟩ := hfixed
          exact .inr (.inr (.inr ⟨n, hn, rfl⟩))
        · cases h

theorem tableswitchLength_eq_ok {length : Nat} (h : tableswitchLength pc ahead = .ok length) :
    ∃ low high, wordAt pc (1 + padding pc + 4) ahead = .ok low ∧
      wordAt pc (1 + padding pc + 8) ahead = .ok high ∧ low ≤ high ∧
      length = 1 + padding pc + 12 + 4 * (high - low + 1).toNat := by
  obtain ⟨low, hlow, h⟩ := bind_eq_ok.mp h
  obtain ⟨high, hhigh, h⟩ := bind_eq_ok.mp h
  split at h
  · cases h
  · next hle =>
    cases h
    exact ⟨low, high, hlow, hhigh, Int.not_lt.mp hle, rfl⟩

theorem lookupswitchLength_eq_ok {length : Nat} (h : lookupswitchLength pc ahead = .ok length) :
    ∃ count, wordAt pc (1 + padding pc + 4) ahead = .ok count ∧ 0 ≤ count ∧
      length = 1 + padding pc + 8 + 8 * count.toNat := by
  obtain ⟨count, hcount, h⟩ := bind_eq_ok.mp h
  split at h
  · cases h
  · next hle =>
    cases h
    exact ⟨count, hcount, Int.not_lt.mp hle, rfl⟩

theorem pads_of_length {padded : Bytes} (h : padded.length = padding pc) : Pads pc padded := by
  unfold Pads
  rw [h, padding]
  omega

/-- The number at a distance is spelled by the four bytes there. -/
theorem word_of_wordAt {block : Bytes} {distance : Nat} {n : Int}
    (h : wordAt pc distance (front ++ (block ++ rest)) = .ok n) (hfront : front.length = distance)
    (hblock : block.length = 4) : IsWord n ∧ word n = block := by
  obtain ⟨m, hm, rfl⟩ := exists_word hblock
  rw [← hfront, wordAt_append pc front rest hm] at h
  cases h
  exact ⟨hm, rfl⟩

/-- A switch over a range with as many operands as its bounds ask for. -/
theorem isEncoding_tableswitch {length : Nat}
    (h : tableswitchLength pc (0xAA :: (operands ++ rest)) = .ok length)
    (hsize : operands.length = length - 1) : IsEncoding pc (0xAA :: operands) := by
  obtain ⟨low, high, hlow, hhigh, hle, rfl⟩ := tableswitchLength_eq_ok h
  have hsplit : operands.length =
      padding pc + (4 + (4 + (4 + 4 * (high - low + 1).toNat))) := by omega
  obtain ⟨padded, operands, rfl, hpadded, hsplit⟩ := exists_eq_append hsplit
  obtain ⟨fallback, operands, rfl, hfallback, hsplit⟩ := exists_eq_append hsplit
  obtain ⟨least, operands, rfl, hleast, hsplit⟩ := exists_eq_append hsplit
  obtain ⟨greatest, table, rfl, hgreatest, htable⟩ := exists_eq_append hsplit
  obtain ⟨hlowWord, rfl⟩ : IsWord low ∧ word low = least := by
    have hlow : wordAt pc (1 + padding pc + 4) ((0xAA :: (padded ++ fallback)) ++
        (least ++ (greatest ++ (table ++ rest)))) = .ok low := by
      simpa only [List.append_assoc, List.cons_append] using hlow
    refine word_of_wordAt hlow ?_ hleast
    rw [List.length_cons, List.length_append]
    omega
  obtain ⟨hhighWord, rfl⟩ : IsWord high ∧ word high = greatest := by
    have hhigh : wordAt pc (1 + padding pc + 8) ((0xAA :: (padded ++ (fallback ++ word low))) ++
        (greatest ++ (table ++ rest))) = .ok high := by
      simpa only [List.append_assoc, List.cons_append] using hhigh
    refine word_of_wordAt hhigh ?_ hgreatest
    rw [List.length_cons, List.length_append, List.length_append]
    omega
  obtain ⟨default, -, rfl⟩ := exists_word hfallback
  obtain ⟨offsets, hoffsets, rfl⟩ := exists_flatMap_eq
    (fun block hblock => (exists_word hblock).imp fun _ => And.right) htable
  have hcount : (offsets.length : Int) = high - low + 1 := by omega
  simpa only [List.append_assoc] using
    IsEncoding.tableswitch (pads_of_length hpadded) hlowWord hhighWord hle hcount

/-- A switch over listed values with as many operands as their number asks for. -/
theorem isEncoding_lookupswitch {length : Nat}
    (h : lookupswitchLength pc (0xAB :: (operands ++ rest)) = .ok length)
    (hsize : operands.length = length - 1) : IsEncoding pc (0xAB :: operands) := by
  obtain ⟨count, hcount, hnonneg, rfl⟩ := lookupswitchLength_eq_ok h
  have hsplit : operands.length = padding pc + (4 + (4 + 8 * count.toNat)) := by omega
  obtain ⟨padded, operands, rfl, hpadded, hsplit⟩ := exists_eq_append hsplit
  obtain ⟨fallback, operands, rfl, hfallback, hsplit⟩ := exists_eq_append hsplit
  obtain ⟨number, table, rfl, hnumber, htable⟩ := exists_eq_append hsplit
  obtain ⟨hword, rfl⟩ : IsWord count ∧ word count = number := by
    have hcount : wordAt pc (1 + padding pc + 4) ((0xAB :: (padded ++ fallback)) ++
        (number ++ (table ++ rest))) = .ok count := by
      simpa only [List.append_assoc, List.cons_append] using hcount
    refine word_of_wordAt hcount ?_ hnumber
    rw [List.length_cons, List.length_append]
    omega
  obtain ⟨default, -, rfl⟩ := exists_word hfallback
  obtain ⟨pairs, hpairs, rfl⟩ := exists_flatMap_eq (fun block hblock => exists_pair hblock) htable
  obtain rfl : (pairs.length : Int) = count := by omega
  simpa only [List.append_assoc] using IsEncoding.lookupswitch (pads_of_length hpadded) hword

/-- **What is decoded at an offset is encoded there.** -/
theorem isEncoding_of_decode (h : decode pc first behind = .ok (i, rest)) :
    IsEncoding pc (first :: i.operands) ∧ i = ⟨pc, first.toNat, i.operands⟩ ∧
      behind = i.operands ++ rest := by
  obtain ⟨length, hlength, hi, rfl, hsize⟩ := decode_eq_ok h
  refine ⟨?_, hi, rfl⟩
  rcases lengthAt_eq_ok hlength with ⟨rfl, htable⟩ | ⟨rfl, hlookup⟩ |
    ⟨rfl, opcode, widened, more, hahead, hwide⟩ | ⟨n, hn, rfl⟩
  · exact isEncoding_tableswitch htable hsize
  · exact isEncoding_lookupswitch hlookup hsize
  · -- the opcode that is widened is the first operand, since the length is more than two
    cases hoperands : i.operands with
    | nil =>
        rw [hoperands, hwide] at hsize
        split at hsize <;> cases hsize
    | cons b operands =>
        rw [hoperands] at hahead hsize
        cases hahead
        rw [List.length_cons] at hsize
        by_cases hiinc : widened = 0x84
        · rw [if_pos hiinc] at hwide
          rw [hiinc]
          exact .wideIncrement (by omega)
        · rw [if_neg hiinc] at hwide
          exact .wide hiinc (by omega)
  · exact .fixed (hn.trans (congrArg some hsize.symm))

/-! ### A whole walk -/

/-- What is encoded at an offset is the first instruction from there. -/
theorem IsEncoding.walkFrom (h : IsEncoding pc (opcode :: operands)) (rest : Bytes) :
    walkFrom pc (opcode :: operands ++ rest) =
      (⟨pc, opcode.toNat, operands⟩ :: (walkFrom (pc + (operands.length + 1)) rest).1,
        (walkFrom (pc + (operands.length + 1)) rest).2) := by
  have hdecode : Instruction.decode pc opcode (operands ++ rest) =
      .ok (⟨pc, opcode.toNat, operands⟩, rest) := by
    obtain ⟨_, _, heq, hdecode⟩ := h.decode
    cases heq
    exact hdecode rest
  rw [List.cons_append, Instruction.walkFrom]
  split
  · next cause herror =>
    rw [hdecode] at herror
    cases herror
  · next i rest' hok =>
    rw [hdecode] at hok
    cases hok
    rfl

/-- **A sequence of encodings is walked**, whatever follows it, and the walk goes on behind it. -/
theorem AreEncoding.walkFrom (h : AreEncoding pc instructions front) (back : Bytes) :
    walkFrom pc (front ++ back) =
      (instructions ++ (walkFrom (pc + front.length) back).1,
        (walkFrom (pc + front.length) back).2) := by
  induction h with
  | nil pc => rfl
  | @cons pc opcode operands front more hfirst hmore ih =>
      have hend : pc + (operands.length + 1) + front.length =
          pc + (opcode :: operands ++ front).length := by
        rw [List.length_append, List.length_cons, Nat.add_assoc]
      rw [List.append_assoc, hfirst.walkFrom, ih, hend]
      rfl

/-- **What is walked is a sequence of encodings**, and all of the code if nothing is wrong. -/
theorem areEncoding_walkFrom (pc : Nat) (ahead : Bytes) :
    ∃ front back, ahead = front ++ back ∧ AreEncoding pc (walkFrom pc ahead).1 front ∧
      ((walkFrom pc ahead).2 = none → back = []) := by
  fun_induction walkFrom pc ahead with
  | case1 pc => exact ⟨[], [], rfl, .nil pc, fun _ => rfl⟩
  | case2 pc first behind cause herror => exact ⟨[], _, rfl, .nil pc, fun h => nomatch h⟩
  | case3 pc first behind i rest hok more failure hwalk ih =>
      obtain ⟨hfirst, hi, rfl⟩ := isEncoding_of_decode hok
      rw [hwalk] at ih
      obtain ⟨front, back, rfl, hmore, hend⟩ := ih
      refine ⟨first :: i.operands ++ front, back, ?_, ?_, hend⟩
      · rw [List.append_assoc, List.cons_append]
      · rw [hi]
        exact .cons hfirst hmore

/-! ### Standing in code -/

/-- The bytes of an instruction. -/
def encoded (i : Instruction) : Bytes := UInt8.ofNat i.opcode :: i.operands

/-- **An instruction stands in code** behind those before it: where they end, within the code, made
of the bytes there, and with an operand that is read from them. -/
structure StandsIn (code : Bytes) (before : List Instruction) (i : Instruction) : Prop where
  starts : i.pc = (before.flatMap encoded).length
  within : i.pc + i.length ≤ code.length
  opcode_lt : i.opcode < 0x100
  spelled : (code.drop i.pc).take i.length = i.encoded
  operand : ∀ operand, i.operand? = some operand → operand.size < i.length ∧
    operand.index = bigEndian ((code.drop (i.pc + 1)).take operand.size)

theorem AreEncoding.eq_flatMap (h : AreEncoding pc instructions front) :
    front = instructions.flatMap encoded := by
  induction h with
  | nil => rfl
  | cons _ _ ih => rw [List.flatMap_cons, ← ih, encoded, UInt8.ofNat_toNat]

/-- An instruction in a sequence of encodings is encoded where those before it end. -/
theorem AreEncoding.isEncoding {before after : List Instruction}
    (h : AreEncoding pc (before ++ i :: after) front) :
    ∃ opcode, IsEncoding i.pc (opcode :: i.operands) ∧ i.opcode = opcode.toNat ∧
      i.pc = pc + (before.flatMap encoded).length := by
  induction before generalizing pc front with
  | nil =>
      cases h with
      | cons hfirst hmore => exact ⟨_, hfirst, rfl, rfl⟩
  | cons j before ih =>
      cases h with
      | cons hfirst hmore =>
          obtain ⟨opcode, hi, hopcode, hpc⟩ := ih hmore
          refine ⟨opcode, hi, hopcode, ?_⟩
          rw [hpc, List.flatMap_cons, List.length_append, Nat.add_assoc]
          rfl

/-- An operand is read from the bytes behind the opcode, from one of them or from two. -/
theorem operand?_eq_some {operand : Operand} (h : i.operand? = some operand) :
    operand.size = (if i.opcode = 0x12 then 1 else 2) ∧
      operand.index = bigEndian (i.operands.take operand.size) := by
  unfold operand? at h
  split at h
  · next hload =>
    cases h
    exact ⟨(if_pos hload).symm, rfl⟩
  · next hload =>
    rw [if_neg hload]
    repeat' split at h
    all_goals cases h
    all_goals exact ⟨rfl, rfl⟩

/-- The instructions that refer to the constant pool have the bytes that their operand is read
from. -/
theorem IsEncoding.size_le {operand : Operand} (h : IsEncoding pc (opcode :: operands))
    (hoperand : operand? ⟨pc, opcode.toNat, operands⟩ = some operand) :
    operand.size ≤ operands.length := by
  cases h with
  | fixed hsize =>
      have hreferring : opcode ∈ referring := by
        by_contra hfree
        rw [operand?_of_not_mem hfree] at hoperand
        cases hoperand
      have htable : ∀ opcode ∈ referring, ∀ n ∈ operandBytes opcode,
          (if opcode.toNat = 0x12 then 1 else 2) ≤ n := by
        decide +kernel
      rw [(operand?_eq_some hoperand).1]
      exact htable opcode hreferring _ hsize
  | wideIncrement => cases hoperand
  | wide => cases hoperand
  | tableswitch => cases hoperand
  | lookupswitch => cases hoperand

/-- An instruction in a sequence of encodings stands in the code, whatever follows the sequence. -/
theorem AreEncoding.standsIn {before after : List Instruction}
    (h : AreEncoding 0 (before ++ i :: after) front) : StandsIn (front ++ back) before i := by
  obtain ⟨opcode, hi, hopcode, hpc⟩ := h.isEncoding
  rw [Nat.zero_add] at hpc
  have hcode : front ++ back =
      before.flatMap encoded ++ (i.encoded ++ (after.flatMap encoded ++ back)) := by
    rw [h.eq_flatMap, List.flatMap_append, List.flatMap_cons, List.append_assoc, List.append_assoc]
  have hahead : (front ++ back).drop i.pc = i.encoded ++ (after.flatMap encoded ++ back) := by
    rw [hcode, hpc, List.drop_left]
  refine ⟨hpc, ?_, ?_, ?_, fun operand hoperand => ?_⟩
  · rw [hcode, hpc, List.length_append, List.length_append]
    exact Nat.add_le_add_left (Nat.le_add_right _ _) _
  · rw [hopcode]
    exact opcode.toNat_lt
  · rw [hahead]
    exact List.take_left' rfl
  · have hsize : operand.size ≤ i.operands.length := by
      refine hi.size_le ?_
      rw [← hopcode]
      exact hoperand
    refine ⟨Nat.lt_succ_of_le hsize, ?_⟩
    rw [(operand?_eq_some hoperand).2, ← List.drop_drop, hahead, encoded, List.cons_append,
      List.drop_one, List.tail_cons, List.take_append_of_le_length hsize]

/-- **Walking accepts exactly the sequences of encodings.**  Nothing is wrong exactly with those,
and the instructions are then those of the sequence.  Otherwise they are the longest sequence that
the code begins with.  Each of them stands in the code behind those before it. -/
theorem walk_of_encodings (code : Bytes) :
    ((walk code).2 = none ↔ ∃ instructions, AreEncoding 0 instructions code) ∧
    (∀ instructions, AreEncoding 0 instructions code → walk code = (instructions, none)) ∧
    (∃ front, front <+: code ∧ AreEncoding 0 (walk code).1 front ∧
      ∀ instructions other, other <+: code → AreEncoding 0 instructions other →
        instructions <+: (walk code).1 ∧ other <+: front) ∧
    ∀ before i after, (walk code).1 = before ++ i :: after → StandsIn code before i := by
  obtain ⟨front, back, hcode, hwalked, hend⟩ : ∃ front back, code = front ++ back ∧
      AreEncoding 0 (walk code).1 front ∧ ((walk code).2 = none → back = []) :=
    areEncoding_walkFrom 0 code
  have hfound (instructions : List Instruction) (h : AreEncoding 0 instructions code) :
      walk code = (instructions, none) := by
    have hwalk := h.walkFrom []
    rw [List.append_nil, walkFrom, List.append_nil] at hwalk
    exact hwalk
  refine ⟨⟨fun hnone => ?_, ?_⟩, hfound, ⟨front, ⟨back, hcode.symm⟩, hwalked, ?_⟩,
    fun before i after hi => ?_⟩
  · rw [hend hnone, List.append_nil] at hcode
    rw [hcode] at hwalked ⊢
    exact ⟨_, hwalked⟩
  · rintro ⟨instructions, h⟩
    rw [hfound instructions h]
  · rintro instructions other ⟨rest, hrest⟩ hother
    have hwalk := hother.walkFrom rest
    rw [hrest] at hwalk
    have hbegins : instructions <+: (walk code).1 := by
      rw [walk, hwalk]
      exact List.prefix_append _ _
    refine ⟨hbegins, ?_⟩
    rw [hother.eq_flatMap, hwalked.eq_flatMap]
    exact List.IsPrefix.flatMap hbegins encoded
  · rw [hi] at hwalked
    rw [hcode]
    exact hwalked.standsIn

/-- Loading a constant, a switch over a range behind one byte of padding, and the wide form of
adding to a local variable. -/
def sampleWalk : List Instruction :=
  [⟨0, 0x12, [5]⟩,
   ⟨2, 0xAA, 0 :: (word 9 ++ word (-1) ++ word 0 ++ [8, 7].flatMap word)⟩,
   ⟨24, 0xC4, [0x84, 0, 1, 0, 2]⟩]

theorem walk_of_encodings_sample :
    AreEncoding 0 sampleWalk (sampleWalk.flatMap encoded) ∧
    walk (sampleWalk.flatMap encoded) = (sampleWalk, none) ∧
    StandsIn (sampleWalk.flatMap encoded) (sampleWalk.take 2) ⟨24, 0xC4, [0x84, 0, 1, 0, 2]⟩ ∧
    sampleWalk <+: (walk (sampleWalk.flatMap encoded ++ [0xFE])).1 := by
  have hload : IsEncoding 0 [0x12, 5] := .fixed rfl
  have hswitch : IsEncoding 2
      (0xAA :: ([0] ++ word 9 ++ word (-1) ++ word 0 ++ [8, 7].flatMap word)) :=
    .tableswitch (by decide) (by decide) (by decide) (by decide) (by decide)
  have hwide : IsEncoding 24 [0xC4, 0x84, 0, 1, 0, 2] := .wideIncrement rfl
  have hcode : AreEncoding 0 sampleWalk (sampleWalk.flatMap encoded) :=
    .cons hload (.cons hswitch (.cons hwide (.nil _)))
  have hwalk := (walk_of_encodings (sampleWalk.flatMap encoded)).2.1 sampleWalk hcode
  obtain ⟨front, -, -, hlongest⟩ :=
    (walk_of_encodings (sampleWalk.flatMap encoded ++ [0xFE])).2.2.1
  refine ⟨hcode, hwalk, ?_, (hlongest sampleWalk _ (List.prefix_append _ _) hcode).1⟩
  exact (walk_of_encodings (sampleWalk.flatMap encoded)).2.2.2 _ _ [] (congrArg Prod.fst hwalk)

end Instruction

end Unjar
