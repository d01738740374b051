import Mathlib.Data.Nat.Digits.Lemmas
import Unjar.Proofs.Decoding

/-!
Reads in a row.

A decoder stops at the first read that fails, and nothing is left of the position then.  Whoever
keeps the cursor sees more: the failure is caught, the cursor still stands somewhere, and the next
read goes on from there.  This module follows such a run, with the reads in any order and of any
sizes, through all of its failures.

The reads of a run tile the bytes.  A read that fails leaves the cursor where it was; one that
succeeds moves it over a slice as long as was asked for, and its answer is told by that slice alone.
So the slices of the reads that succeeded, one after the other, are the bytes before the position
that the run ends at.

Main definitions:

* `Unjar.Reader`, `Unjar.Reader.take` — a read that leaves a position even if it fails;
* `Unjar.Cursor.Request`, `Unjar.Cursor.Request.Meets` — what can be read, and what answers it;
* `Unjar.Cursor.Step`, `Unjar.Cursor.steps` — the reads of a run, each with how it ended;
* `Unjar.Cursor.Step.Sound`, `Unjar.Cursor.Tiles` — what holds of one read and of a run.

Main results:

* `Unjar.bigEndian_eq_positional`, `Unjar.signed_eq_toInt` — the numbers that bytes spell;
* `Unjar.Cursor.Request.run_decoder` — a read of a kept cursor is a read of a decoder;
* `Unjar.Cursor.sound_step` — **one read**;
* `Unjar.Cursor.tiles_of_steps` — **the reads of a run tile the bytes before its last position**.
-/

set_option autoImplicit false

namespace Unjar

/-! ### Numbers -/

/-- The number whose digits to the base 256 are the bytes, the lowest of them last. -/
def positional (bytes : Bytes) : Nat := Nat.ofDigits 256 (bytes.reverse.map UInt8.toNat)

theorem bigEndian_eq_positional (bytes : Bytes) : bigEndian bytes = positional bytes := by
  induction bytes using List.reverseRecOn with
  | nil => rfl
  | append_singleton front b ih =>
      have hdigits : ((front ++ [b]).reverse.map UInt8.toNat) =
          b.toNat :: front.reverse.map UInt8.toNat := by simp
      rw [bigEndian_append_singleton, ih, positional, positional, hdigits, Nat.ofDigits_cons]
      omega

theorem positional_lt (bytes : Bytes) : positional bytes < 256 ^ bytes.length := by
  have hlength : bytes.length = (bytes.reverse.map UInt8.toNat).length := by simp
  rw [hlength]
  refine Nat.ofDigits_lt_base_pow_length (by decide) fun digit hdigit => ?_
  obtain ⟨b, -, rfl⟩ := List.mem_map.mp hdigit
  exact b.toNat_lt

/-- Two's complement of four bytes is that of 32 bits. -/
theorem signed_eq_toInt {n : Nat} (h : n < 256 ^ 4) : signed 4 n = (BitVec.ofNat 32 n).toInt := by
  have hmod : n % 2 ^ 32 = n := Nat.mod_eq_of_lt h
  have hhalf : valuesOfBits (8 * 4 - 1) = 2 ^ 31 := rfl
  rw [BitVec.toInt_eq_toNat_cond, BitVec.toNat_ofNat, hmod, signed, hhalf]
  rcases Nat.lt_or_ge n (2 ^ 31) with hlow | hhigh
  · rw [if_pos hlow, if_pos (by omega)]
  · rw [if_neg (by omega), if_neg (by omega)]
    rfl

/-! ### Blocks -/

theorem take_append_extract {α : Type} (l : List α) {i j : Nat} (h : i ≤ j) :
    l.take i ++ l.extract i j = l.take j := by
  rw [List.extract_eq_take_drop, ← List.take_add, Nat.add_sub_cancel' h]

/-! ### A cursor that is kept -/

/-- The position so many bytes further on. -/
def Cursor.advance (c : Cursor) (n : Nat) : Cursor :=
  { c with offset := c.offset + n, ahead := c.ahead.drop n }

/-- **A read of a cursor that is kept**: however it ends, it leaves a position. -/
abbrev Reader (α : Type) := ExceptT Malformed (StateM Cursor) α

/-- Taking a block of bytes.  It is refused before anything moves. -/
def Reader.take (size : Int) : Reader Bytes := do
  let c ← get
  if size < 0 ∨ c.remaining < size then
    throw (.truncated size c.offset c.remaining)
  set (c.advance size.toNat)
  pure (c.ahead.take size.toNat)

theorem Reader.outcome_take (size : Int) (c : Cursor) :
    outcome (Reader.take size) c =
      if size < 0 ∨ c.remaining < size then (.error (.truncated size c.offset c.remaining), c)
      else (.ok (c.ahead.take size.toNat), c.advance size.toNat) := by
  simp only [Reader.take, outcome_bind, outcome_get]
  split <;> rfl

namespace Cursor

theorem remaining_eq_length {c : Cursor} (hbeyond : c.beyond = 0) :
    c.remaining = c.ahead.length := by
  rw [remaining, hbeyond, Int.natCast_zero, Int.sub_zero]

/-- The block that a decoder takes is the one that is taken from a kept cursor, and it fails where
that fails. -/
theorem run_take {c : Cursor} (hbeyond : c.beyond = 0) (size : Int) :
    (take size).run c = (outcome (Reader.take size) c).1.map
      fun block => (block, (outcome (Reader.take size) c).2) := by
  have hremaining := remaining_eq_length hbeyond
  rw [Reader.outcome_take]
  simp only [StateT.run, take]
  rcases Int.lt_or_le size 0 with hneg | hpos
  · simp [hneg, Except.map]
  · rw [if_neg (by omega)]
    rcases Int.lt_or_le c.remaining size with hmore | hle
    · rw [takeExactly_of_lt (by omega), if_pos (.inr hmore)]
      rfl
    · rw [takeExactly_of_le (by omega), if_neg (by omega)]
      rfl

/-! ### Requests -/

/-- **What can be read.** -/
inductive Request where
  | u1
  | u2
  | u4
  | s4
  | raw (size : Int)
  | skip (size : Int)
deriving DecidableEq, Repr

/-- What a read gives back. -/
inductive Answer where
  | number (n : Int)
  | block (bytes : Bytes)
  | nothing
deriving DecidableEq, Repr

namespace Request

/-- The number of bytes that are asked for. -/
def size : Request → Int
  | u1 => 1
  | u2 => 2
  | u4 | s4 => 4
  | raw size | skip size => size

/-- What is made of the bytes. -/
def answer : Request → Bytes → Answer
  | u1, slice | u2, slice | u4, slice => .number (bigEndian slice)
  | s4, slice => .number (signed 4 (bigEndian slice))
  | raw _, slice => .block slice
  | skip _, _ => .nothing

/-- A read of a kept cursor. -/
def perform (r : Request) : Reader Answer := r.answer <$> Reader.take r.size

/-- The decoder that reads the same. -/
def decoder : Request → Decoder Answer
  | u1 => (fun n : Nat => .number n) <$> Cursor.u1
  | u2 => (fun n : Nat => .number n) <$> Cursor.u2
  | u4 => (fun n : Nat => .number n) <$> Cursor.u4
  | s4 => .number <$> Cursor.s4
  | raw size => .block <$> take size
  | skip size => (fun _ => .nothing) <$> Cursor.skip size

/-- **What a request is met with**: a slice as long as was asked for, and what it stands for. -/
inductive Meets : Request → Bytes → Answer → Prop where
  | u1 {slice : Bytes} (h : slice.length = 1) : Meets u1 slice (.number (positional slice))
  | u2 {slice : Bytes} (h : slice.length = 2) : Meets u2 slice (.number (positional slice))
  | u4 {slice : Bytes} (h : slice.length = 4) : Meets u4 slice (.number (positional slice))
  | s4 {slice : Bytes} (h : slice.length = 4) :
      Meets s4 slice (.number (BitVec.ofNat 32 (positional slice)).toInt)
  | raw (slice : Bytes) : Meets (raw slice.length) slice (.block slice)
  | skip (slice : Bytes) : Meets (skip slice.length) slice .nothing

theorem meets_answer {r : Request} {slice : Bytes} (h : (slice.length : Int) = r.size) :
    r.Meets slice (r.answer slice) := by
  cases r with
  | u1 | u2 | u4 =>
      rw [answer, bigEndian_eq_positional]
      constructor
      exact Int.ofNat.inj h
  | s4 =>
      have hlength : slice.length = 4 := Int.ofNat.inj h
      have hlt : positional slice < 256 ^ 4 := hlength ▸ positional_lt slice
      rw [answer, bigEndian_eq_positional, signed_eq_toInt hlt]
      exact .s4 hlength
  | raw size =>
      obtain rfl : (slice.length : Int) = size := h
      exact .raw slice
  | skip size =>
      obtain rfl : (slice.length : Int) = size := h
      exact .skip slice

theorem outcome_perform (r : Request) (c : Cursor) :
    outcome r.perform c =
      if r.size < 0 ∨ c.remaining < r.size then
        (.error (.truncated r.size c.offset c.remaining), c)
      else (.ok (r.answer (c.ahead.take r.size.toNat)), c.advance r.size.toNat) := by
  rw [perform, outcome_map, Reader.outcome_take]
  split <;> rfl

theorem decoder_eq (r : Request) : r.decoder = r.answer <$> take r.size := by
  cases r <;> simp only [decoder, Cursor.u1, Cursor.u2, Cursor.u4, Cursor.s4, Cursor.skip, unsigned,
    Functor.map_map] <;> rfl

/-- **A read of a kept cursor is a read of a decoder**: the decoder gives the same answer and the
same position, and it fails for the same cause. -/
theorem run_decoder {c : Cursor} (hbeyond : c.beyond = 0) (r : Request) :
    r.decoder.run c = (outcome r.perform c).1.map
      fun answer => (answer, (outcome r.perform c).2) := by
  rw [decoder_eq, StateT.run_map, run_take hbeyond, outcome_perform, Reader.outcome_take]
  split <;> rfl

end Request

/-! ### Runs -/

/-- **One read of a run**: what was asked for and where, how it ended and where. -/
structure Step where
  request : Request
  before : Cursor
  outcome : Except Malformed Answer
  after : Cursor

/-- A read that may fail. -/
def step (c : Cursor) (r : Request) : Step :=
  ⟨r, c, (outcome r.perform c).1, (outcome r.perform c).2⟩

/-- **The reads of a run.**  Each begins where the one before it left the cursor, whether that one
succeeded or failed. -/
def steps (c : Cursor) : List Request → List Step
  | [] => []
  | r :: more => c.step r :: (c.step r).after.steps more

/-- Where a run ends. -/
def last (c : Cursor) (requests : List Request) : Cursor :=
  requests.foldl (fun c r => (c.step r).after) c

namespace Step

/-- The bytes that a read passes. -/
def slice (data : Bytes) (s : Step) : Bytes := data.extract s.before.offset s.after.offset

/-- **What holds of one read.**  Its position never decreases and never lies beyond the end.  It
fails exactly if its size is negative or exceeds what remains, and then the cursor is where it was;
otherwise the slice that it passes meets it.  A decoder on the same cursor reads the same. -/
structure Sound (data : Bytes) (s : Step) : Prop where
  onward : s.before.offset ≤ s.after.offset
  within : s.after.offset ≤ data.length
  remaining : s.before.remaining = data.length - s.before.offset
  fails_iff : (∃ cause, s.outcome = .error cause) ↔
    s.request.size < 0 ∨ s.before.remaining < s.request.size
  unmoved : ∀ cause, s.outcome = .error cause →
    cause = .truncated s.request.size s.before.offset s.before.remaining ∧ s.after = s.before
  meets : ∀ answer, s.outcome = .ok answer → s.request.Meets (s.slice data) answer
  decodes : s.request.decoder.run s.before = s.outcome.map fun answer => (answer, s.after)

end Step

/-- A position within the bytes that are read. -/
structure Within (data : Bytes) (c : Cursor) : Prop where
  offset_le : c.offset ≤ data.length
  ahead : c.ahead = data.drop c.offset
  beyond : c.beyond = 0

section

variable {data : Bytes} {c : Cursor}

theorem within_start (data : Bytes) : (start data).Within data := ⟨Nat.zero_le _, rfl, rfl⟩

theorem Within.remaining (h : c.Within data) : c.remaining = data.length - c.offset := by
  have hle := h.offset_le
  rw [remaining_eq_length h.beyond, h.ahead, List.length_drop]
  omega

theorem Within.advance (h : c.Within data) {n : Nat} (hn : n ≤ c.remaining) :
    (c.advance n).Within data where
  offset_le := by
    rw [h.remaining] at hn
    have hle := h.offset_le
    change c.offset + n ≤ data.length
    omega
  ahead := by
    change c.ahead.drop n = data.drop (c.offset + n)
    rw [h.ahead, List.drop_drop]
  beyond := h.beyond

/-- The bytes ahead are those behind the position. -/
theorem Within.take_ahead (h : c.Within data) (n : Nat) :
    c.ahead.take n = data.extract c.offset (c.advance n).offset := by
  rw [List.extract_eq_take_drop, h.ahead]
  change _ = (data.drop c.offset).take (c.offset + n - c.offset)
  rw [Nat.add_sub_cancel_left]

/-! ### One read -/

/-- A read that is refused. -/
theorem step_of_refused {r : Request} (h : r.size < 0 ∨ c.remaining < r.size) :
    c.step r = ⟨r, c, .error (.truncated r.size c.offset c.remaining), c⟩ := by
  rw [step, Request.outcome_perform, if_pos h]

/-- A read that is not. -/
theorem step_of_granted {r : Request} (h : ¬(r.size < 0 ∨ c.remaining < r.size)) :
    c.step r = ⟨r, c, .ok (r.answer (c.ahead.take r.size.toNat)), c.advance r.size.toNat⟩ := by
  rw [step, Request.outcome_perform, if_neg h]

/-- The cursor stays within the bytes. -/
theorem Within.step (h : c.Within data) (r : Request) : (c.step r).after.Within data := by
  by_cases hrefused : r.size < 0 ∨ c.remaining < r.size
  · rw [step_of_refused hrefused]
    exact h
  · rw [step_of_granted hrefused]
    exact h.advance (by omega)

/-- **One read.** -/
theorem sound_step (h : c.Within data) (r : Request) : (c.step r).Sound data := by
  have hstep := h.step r
  have hdecodes : (c.step r).request.decoder.run (c.step r).before =
      (c.step r).outcome.map fun answer => (answer, (c.step r).after) :=
    Request.run_decoder h.beyond r
  by_cases hrefused : r.size < 0 ∨ c.remaining < r.size
  · rw [step_of_refused hrefused] at hdecodes ⊢
    exact {
      onward := Nat.le_refl _
      within := h.offset_le
      remaining := h.remaining
      fails_iff := iff_of_true ⟨_, rfl⟩ hrefused
      unmoved := fun _ hcause => ⟨(Except.error.inj hcause).symm, rfl⟩
      meets := fun _ hanswer => nomatch hanswer
      decodes := hdecodes }
  · rw [step_of_granted hrefused] at hstep hdecodes ⊢
    have hlength : ((c.ahead.take r.size.toNat).length : Int) = r.size := by
      have hremaining := remaining_eq_length h.beyond
      rw [List.length_take_of_le (by omega)]
      omega
    exact {
      onward := Nat.le_add_right _ _
      within := hstep.offset_le
      remaining := h.remaining
      fails_iff := iff_of_false (fun ⟨_, hcause⟩ => nomatch hcause) hrefused
      unmoved := fun _ hcause => nomatch hcause
      meets := by
        intro answer hanswer
        obtain rfl := Except.ok.inj hanswer
        rw [Step.slice, ← h.take_ahead]
        exact Request.meets_answer hlength
      decodes := hdecodes }

/-! ### The reads of a run -/

variable (requests : List Request)

theorem map_request_steps (c : Cursor) : (c.steps requests).map Step.request = requests := by
  induction requests generalizing c with
  | nil => rfl
  | cons r more ih => exact congrArg (r :: ·) (ih _)

/-- Each read begins where the one before it ended. -/
theorem map_before_steps (c : Cursor) :
    (c.steps requests).map Step.before ++ [c.last requests] =
      c :: (c.steps requests).map Step.after := by
  induction requests generalizing c with
  | nil => rfl
  | cons r more ih => exact congrArg (c :: ·) (ih _)

theorem Within.last (h : c.Within data) : (c.last requests).Within data := by
  induction requests generalizing c with
  | nil => exact h
  | cons r more ih => exact ih (h.step r)

theorem sound_of_mem_steps (h : c.Within data) : ∀ s ∈ c.steps requests, s.Sound data := by
  induction requests generalizing c with
  | nil => exact fun _ hs => nomatch hs
  | cons r more ih =>
      rw [steps, List.forall_mem_cons]
      exact ⟨sound_step h r, ih (h.step r)⟩

/-- No position of a run lies before another that was taken earlier. -/
theorem pairwise_steps (h : c.Within data) :
    (c :: (c.steps requests).map Step.after).Pairwise fun c c' => c.offset ≤ c'.offset := by
  induction requests generalizing c with
  | nil => exact List.pairwise_singleton _ _
  | cons r more ih =>
      have htail := ih (h.step r)
      refine List.pairwise_cons.mpr ⟨?_, htail⟩
      -- whatever comes later lies behind the first position, and that one behind the start
      have honward : c.offset ≤ (c.step r).after.offset := (sound_step h r).onward
      intro c' hc'
      rcases List.mem_cons.mp hc' with rfl | hc'
      · exact honward
      · exact honward.trans ((List.pairwise_cons.mp htail).1 c' hc')

/-- **The slices of the reads that succeed stand one behind the other.** -/
theorem take_append_slices (h : c.Within data) :
    data.take c.offset ++ ((c.steps requests).filter (·.outcome.isOk)).flatMap (Step.slice data) =
      data.take (c.last requests).offset := by
  induction requests generalizing c with
  | nil => exact List.append_nil _
  | cons r more ih =>
      have hsound := sound_step h r
      have hlater := ih (h.step r)
      cases hr : (c.step r).outcome with
      | ok answer =>
          have hslice : data.take c.offset ++ (c.step r).slice data =
              data.take (c.step r).after.offset := take_append_extract data hsound.onward
          rw [steps, List.filter_cons_of_pos (by rw [hr]; rfl), List.flatMap_cons,
            ← List.append_assoc, hslice]
          exact hlater
      | error cause =>
          -- the read passed nothing, so the later ones begin where it did
          have hoffset : (c.step r).after.offset = c.offset :=
            congrArg Cursor.offset (hsound.unmoved cause hr).2
          rw [steps, List.filter_cons_of_neg (by rw [hr]; exact Bool.false_ne_true), ← hoffset]
          exact hlater

end

/-- **What holds of the reads of a run.**  Every read is made, each from the position that the one
before it left, and sound.  The positions never decrease and end within the bytes, and the slices of
the reads that succeed are, in this order, the bytes before the last position. -/
structure Tiles (data : Bytes) (requests : List Request) (steps : List Step) (last : Cursor) :
    Prop where
  made : steps.map Step.request = requests
  joined : steps.map Step.before ++ [last] = start data :: steps.map Step.after
  sound : ∀ s ∈ steps, s.Sound data
  ordered : (start data :: steps.map Step.after).Pairwise fun c c' => c.offset ≤ c'.offset
  within : last.offset ≤ data.length
  slices : (steps.filter (·.outcome.isOk)).flatMap (Step.slice data) = data.take last.offset

/-- **The reads of a run tile the bytes before its last position**, whatever is read, however much
is asked for and however often a read fails. -/
theorem tiles_of_steps (data : Bytes) (requests : List Request) :
    Tiles data requests ((start data).steps requests) ((start data).last requests) where
  made := map_request_steps requests _
  joined := map_before_steps requests _
  sound := sound_of_mem_steps requests (within_start data)
  ordered := pairwise_steps requests (within_start data)
  within := ((within_start data).last requests).offset_le
  slices := take_append_slices requests (within_start data)

/-- Two numbers are read from six bytes; the reads between them and behind them are refused. -/
example : ((start [0x80, 1, 0xff, 0xff, 0xff, 0xfe]).steps
      [.u2, .raw (-1), .skip 5, .s4, .u1]).map (fun s => (s.outcome.toOption, s.after.offset)) =
    [(some (.number 0x8001), 2), (none, 2), (none, 2), (some (.number (-2)), 6), (none, 6)] := by
  decide +kernel

end Cursor

end Unjar
