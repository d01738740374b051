import Mathlib.Data.List.Forall2
import Unjar.ClassFile.Builder
import Unjar.Proofs.Returning

/-!
What decoders read.

A decoder takes bytes from the front of what lies ahead and never looks at the rest.  Two notions
make this usable.  A decoder *ignores the tail* if more bytes at the end change nothing about a read
that succeeds.  A decoder *reads* certain bytes as a value if it does so wherever they stand and
whatever follows.  A third tells of reads whose bytes are not known beforehand: a decoder *takes*
what is told of the bytes that it passed and of what it made of them.  All three pass from the parts
of a decoder to the whole.

Main definitions:

* `Unjar.Cursor.extend` — a position with more bytes at the end;
* `Unjar.Decoder.IgnoresTail` — more bytes at the end change nothing;
* `Unjar.Decoder.Reads` — certain bytes are read as a value;
* `Unjar.Cursor.Passes`, `Unjar.Decoder.Takes` — the bytes that a read passes, and what is told of
  them.

Main results:

* `Unjar.Decoder.run_bind_eq_ok` — a sequence of reads succeeds when each of them does;
* `Unjar.Decoder.IgnoresTail.times`, `Unjar.Decoder.Reads.times` — repeated reads;
* `Unjar.Cursor.reads_unsigned` — numbers are read back from their bytes;
* `Unjar.Decoder.Takes.bind` — what is told of a sequence of reads.
-/

set_option autoImplicit false

namespace Unjar

/-- A position with more bytes at the end. -/
def Cursor.extend (c : Cursor) (more : Bytes) : Cursor := { c with ahead := c.ahead ++ more }

theorem takeExactly_append_length {α : Type} (front rest : List α) :
    takeExactly front.length (front ++ rest) = some (front, rest) := by
  induction front with
  | nil => rfl
  | cons a front ih => simp [takeExactly, ih]

theorem takeExactly_append {α : Type} {n : Nat} {l front rest : List α} (more : List α)
    (h : takeExactly n l = some (front, rest)) :
    takeExactly n (l ++ more) = some (front, rest ++ more) := by
  induction n generalizing l front with
  | zero =>
      simp only [takeExactly, Option.some.injEq, Prod.mk.injEq] at h ⊢
      obtain ⟨rfl, rfl⟩ := h
      exact ⟨rfl, rfl⟩
  | succ n ih =>
      cases l with
      | nil => simp [takeExactly] at h
      | cons a l =>
          simp only [takeExactly, Option.map_eq_some_iff, Prod.mk.injEq, Prod.exists] at h
          obtain ⟨front', rest', h, rfl, rfl⟩ := h
          simp [takeExactly, ih h]

namespace Decoder

variable {α β : Type}

/-! ### Sequences of reads -/

theorem run_bind_eq_ok {d : Decoder α} {f : α → Decoder β} {c c'' : Cursor} {b : β} :
    (d >>= f).run c = .ok (b, c'') ↔
      ∃ a c', d.run c = .ok (a, c') ∧ (f a).run c' = .ok (b, c'') := by
  rw [StateT.run_bind]
  cases h : d.run c with
  | error cause => simp [bind, Except.bind]
  | ok found =>
      obtain ⟨a, c'⟩ := found
      constructor
      · intro hf
        exact ⟨a, c', rfl, hf⟩
      · rintro ⟨a', c'', ha, hf⟩
        cases ha
        exact hf

theorem run_map_eq_ok {d : Decoder α} {f : α → β} {c c' : Cursor} {b : β} :
    (f <$> d).run c = .ok (b, c') ↔ ∃ a, d.run c = .ok (a, c') ∧ f a = b := by
  rw [StateT.run_map]
  cases d.run c with
  | error cause => simp [Functor.map, Except.map]
  | ok found =>
      obtain ⟨a, c''⟩ := found
      simp only [Functor.map, Except.map, Except.ok.injEq, Prod.mk.injEq]
      constructor
      · rintro ⟨hb, hc⟩
        exact ⟨a, ⟨rfl, hc⟩, hb⟩
      · rintro ⟨a', ⟨rfl, hc⟩, hb⟩
        exact ⟨hb, hc⟩

theorem run_lift_eq_ok {e : Except Malformed α} {c c' : Cursor} {a : α} :
    (liftM e : Decoder α).run c = .ok (a, c') ↔ e = .ok a ∧ c = c' := by
  cases e with
  | error cause => simp [liftM, monadLift, MonadLift.monadLift, bind, Except.bind]
  | ok found =>
      simp [liftM, monadLift, MonadLift.monadLift, bind, Except.bind, pure, Except.pure]

/-! ### Ignoring the tail -/

/-- **More bytes at the end change nothing** about a read that succeeds. -/
def IgnoresTail (d : Decoder α) : Prop :=
  ∀ (c : Cursor) (a : α) (c' : Cursor) (more : Bytes),
    d.run c = .ok (a, c') → d.run (c.extend more) = .ok (a, c'.extend more)

namespace IgnoresTail

theorem pure (a : α) : IgnoresTail (Pure.pure a) := by
  intro c a' c' more h
  cases h
  rfl

theorem throw (cause : Malformed) : IgnoresTail (throw cause : Decoder α) := by
  intro c a c' more h
  cases h

theorem lift (e : Except Malformed α) : IgnoresTail (liftM e) := by
  intro c a c' more h
  obtain ⟨rfl, rfl⟩ := run_lift_eq_ok.1 h
  exact run_lift_eq_ok.2 ⟨rfl, rfl⟩

theorem bind {d : Decoder α} {f : α → Decoder β} (hd : IgnoresTail d)
    (hf : ∀ a, IgnoresTail (f a)) : IgnoresTail (d >>= f) := by
  intro c b c'' more h
  obtain ⟨a, c', ha, hb⟩ := run_bind_eq_ok.1 h
  exact run_bind_eq_ok.2 ⟨a, c'.extend more, hd c a c' more ha, hf a c' b c'' more hb⟩

theorem map {d : Decoder α} (f : α → β) (hd : IgnoresTail d) : IgnoresTail (f <$> d) := by
  intro c b c' more h
  obtain ⟨a, ha, rfl⟩ := run_map_eq_ok.1 h
  exact run_map_eq_ok.2 ⟨a, hd c a c' more ha, rfl⟩

theorem take (size : Int) : IgnoresTail (Cursor.take size) := by
  intro c block c' more h
  unfold Cursor.take at h ⊢
  simp only [StateT.run] at h ⊢
  split at h
  · cases h
  · next hsize =>
    cases ht : takeExactly size.toNat c.ahead with
    | none => simp [ht] at h
    | some found =>
        obtain ⟨front, rest⟩ := found
        simp only [ht, Except.ok.injEq, Prod.mk.injEq] at h
        obtain ⟨rfl, rfl⟩ := h
        have hmore : takeExactly size.toNat (c.extend more).ahead = some (front, rest ++ more) :=
          takeExactly_append more ht
        rw [if_neg (by simpa [Cursor.extend] using hsize), hmore]
        rfl

theorem unsigned (size : Nat) : IgnoresTail (Cursor.unsigned size) := (take size).map _

theorem times {d : Decoder α} (hd : IgnoresTail d) (n : Nat) : IgnoresTail (Cursor.times d n) := by
  induction n with
  | zero => exact pure []
  | succ n ih => exact hd.bind fun first => ih.bind fun rest => pure (first :: rest)

end IgnoresTail

/-! ### Reading certain bytes -/

/-- **Certain bytes are read as a value**, wherever they stand and whatever follows them. -/
def Reads (d : Decoder α) (bytes : Bytes) (a : α) : Prop :=
  ∀ (offset : Nat) (rest : Bytes),
    d.run ⟨offset, bytes ++ rest, 0⟩ = .ok (a, ⟨offset + bytes.length, rest, 0⟩)

namespace Reads

theorem pure (a : α) : Reads (Pure.pure a) [] a := fun _ _ => rfl

theorem lift {e : Except Malformed α} {a : α} (h : e = .ok a) : Reads (liftM e) [] a := by
  intro offset rest
  exact run_lift_eq_ok.2 ⟨h, rfl⟩

theorem bind {d : Decoder α} {f : α → Decoder β} {front back : Bytes} {a : α} {b : β}
    (hd : Reads d front a) (hf : Reads (f a) back b) : Reads (d >>= f) (front ++ back) b := by
  intro offset rest
  refine run_bind_eq_ok.2 ⟨a, ⟨offset + front.length, back ++ rest, 0⟩, ?_, ?_⟩
  · rw [List.append_assoc]
    exact hd offset (back ++ rest)
  · rw [hf (offset + front.length) rest, List.length_append, Nat.add_assoc]

theorem map {d : Decoder α} {bytes : Bytes} {a : α} (f : α → β) (hd : Reads d bytes a) :
    Reads (f <$> d) bytes (f a) :=
  fun offset rest => run_map_eq_ok.2 ⟨a, hd offset rest, rfl⟩

/-- The last read of a sequence: nothing more is read. -/
theorem bind_of_eq_pure {d : Decoder α} {f : α → Decoder β} {bytes : Bytes} {a : α} {b : β}
    (hd : Reads d bytes a) (hf : f a = Pure.pure b) : Reads (d >>= f) bytes b := by
  have := hd.bind (hf ▸ pure b)
  rwa [List.append_nil] at this

/-- The last read of a sequence, whose value is only wrapped. -/
theorem bind_pure {d : Decoder α} {bytes : Bytes} {a : α} (f : α → β) (hd : Reads d bytes a) :
    Reads (d >>= fun a => Pure.pure (f a)) bytes (f a) :=
  hd.bind_of_eq_pure rfl

/-- A check between two reads takes no bytes. -/
theorem lift_bind {e : Except Malformed α} {f : α → Decoder β} {bytes : Bytes} {a : α} {b : β}
    (he : e = .ok a) (hf : Reads (f a) bytes b) : Reads (liftM e >>= f) bytes b :=
  Reads.bind (lift he) hf

/-- Rows that are read one by one are read as a list. -/
theorem times {ρ : Type} {d : Decoder α} {encode : ρ → Bytes} {rows : List ρ} {values : List α}
    (h : List.Forall₂ (fun row a => Reads d (encode row) a) rows values) :
    Reads (Cursor.times d rows.length) (rows.flatMap encode) values := by
  induction h with
  | nil => exact pure []
  | @cons row a rows values hrow _ ih => exact Reads.bind hrow (ih.bind_pure (a :: ·))

end Reads

end Decoder

/-! ### Blocks and numbers -/

theorem bytesOfNat_length (size n : Nat) : (bytesOfNat size n).length = size := by
  induction size generalizing n with
  | zero => rfl
  | succ size ih => simp [bytesOfNat, ih]

theorem bigEndian_append_singleton (bytes : Bytes) (b : UInt8) :
    bigEndian (bytes ++ [b]) = bigEndian bytes * 256 + b.toNat := by
  simp [bigEndian, List.foldl_append]

theorem bigEndian_bytesOfNat {size n : Nat} (h : n < valuesOfBits (8 * size)) :
    bigEndian (bytesOfNat size n) = n := by
  induction size generalizing n with
  | zero =>
      have : n = 0 := by simpa [valuesOfBits] using h
      subst this
      rfl
  | succ size ih =>
      have hpow : valuesOfBits (8 * (size + 1)) = valuesOfBits (8 * size) * 256 := by
        simp [valuesOfBits, Nat.mul_add, Nat.pow_add]
      have hdiv : n / 256 < valuesOfBits (8 * size) := by omega
      rw [bytesOfNat, bigEndian_append_singleton, ih hdiv]
      have hmod : (UInt8.ofNat (n % 256)).toNat = n % 256 := by
        simp [UInt8.toNat_ofNat']
      omega

namespace Cursor

open Decoder

theorem reads_take (bytes : Bytes) : Reads (take bytes.length) bytes bytes := by
  intro offset rest
  simp [take, StateT.run, takeExactly_append_length]

theorem reads_unsigned {size n : Nat} (h : n < valuesOfBits (8 * size)) :
    Reads (unsigned size) (bytesOfNat size n) n := by
  have := (reads_take (bytesOfNat size n)).map bigEndian
  rwa [bytesOfNat_length, bigEndian_bytesOfNat h] at this

theorem reads_u1 {n : Nat} (h : n < 0x100) : Reads u1 [UInt8.ofNat n] n := by
  have hbytes : bytesOfNat 1 n = [UInt8.ofNat n] := by
    simp [bytesOfNat, Nat.mod_eq_of_lt h]
  exact hbytes ▸ reads_unsigned h

theorem reads_u2 {n : Nat} (h : n < 0x10000) : Reads u2 (bytesOfNat 2 n) n := reads_unsigned h

theorem reads_u4 {n : Nat} (h : n < 0x100000000) : Reads u4 (bytesOfNat 4 n) n := reads_unsigned h

end Cursor

/-! ### Bytes that are passed -/

/-- **A position passes a block of bytes**, and the rest lies ahead of the other.  Beyond the end
there are none to pass. -/
structure Cursor.Passes (c : Cursor) (block : Bytes) (c' : Cursor) : Prop where
  ahead : c.ahead = block ++ c'.ahead
  offset : c'.offset = c.offset + block.length
  beyond : c'.beyond = c.beyond
  within : block ≠ [] → c.beyond = 0

theorem Cursor.Passes.trans {c c' c'' : Cursor} {front back : Bytes} (h : c.Passes front c')
    (h' : c'.Passes back c'') : c.Passes (front ++ back) c'' where
  ahead := by rw [h.ahead, h'.ahead, List.append_assoc]
  offset := by rw [h'.offset, h.offset, List.length_append, Nat.add_assoc]
  beyond := h'.beyond.trans h.beyond
  within := fun hne => by
    rw [ne_eq, List.append_eq_nil_iff, not_and_or] at hne
    exact hne.elim h.within fun hback => h.beyond ▸ h'.within hback

theorem takeExactly_eq_some {α : Type} {n : Nat} {l front rest : List α}
    (h : takeExactly n l = some (front, rest)) : l = front ++ rest ∧ front.length = n := by
  induction n generalizing l front with
  | zero =>
      cases h
      exact ⟨rfl, rfl⟩
  | succ n ih =>
      cases l with
      | nil => cases h
      | cons a l =>
          obtain ⟨⟨front', rest'⟩, htake, heq⟩ := Option.map_eq_some_iff.mp h
          cases heq
          obtain ⟨rfl, hlength⟩ := ih htake
          exact ⟨rfl, congrArg (· + 1) hlength⟩

theorem takeExactly_of_le {α : Type} {n : Nat} {l : List α} (h : n ≤ l.length) :
    takeExactly n l = some (l.take n, l.drop n) := by
  have := takeExactly_append_length (l.take n) (l.drop n)
  rwa [List.length_take_of_le h, List.take_append_drop] at this

theorem takeExactly_of_lt {α : Type} {n : Nat} {l : List α} (h : l.length < n) :
    takeExactly n l = none := by
  rw [Option.eq_none_iff_forall_ne_some]
  rintro ⟨front, rest⟩ htake
  obtain ⟨rfl, rfl⟩ := takeExactly_eq_some htake
  rw [List.length_append] at h
  omega

namespace Decoder

variable {α β : Type}

/-- Bytes that are read as a value are passed by whoever reads them. -/
theorem Reads.run_of_passes {d : Decoder α} {block : Bytes} {a : α} {c c' : Cursor}
    (h : Reads d block a) (hpasses : c.Passes block c') (hne : block ≠ []) :
    d.run c = .ok (a, c') := by
  obtain ⟨offset, ahead, beyond⟩ := c
  obtain ⟨offset', ahead', beyond'⟩ := c'
  obtain ⟨hahead, hoffset, hbeyond, hwithin⟩ := hpasses
  obtain rfl : beyond = 0 := hwithin hne
  dsimp only at hahead hoffset hbeyond
  rw [hahead, hoffset, hbeyond]
  exact h offset ahead'

/-- **A decoder takes what is told**: of the bytes that a read passes, and of what it made of them,
`P` holds. -/
def Takes (d : Decoder α) (P : Bytes → α → Prop) : Prop :=
  ∀ (c : Cursor) (a : α) (c' : Cursor), d.run c = .ok (a, c') →
    ∃ block, c.Passes block c' ∧ P block a

namespace Takes

theorem mono {d : Decoder α} {P Q : Bytes → α → Prop} (hd : Takes d P)
    (h : ∀ block a, P block a → Q block a) : Takes d Q := by
  intro c a c' hrun
  obtain ⟨block, hpasses, hblock⟩ := hd c a c' hrun
  exact ⟨block, hpasses, h block a hblock⟩

theorem pure (a : α) : Takes (Pure.pure a) fun block b => block = [] ∧ b = a := by
  intro c b c' h
  cases h
  exact ⟨[], ⟨rfl, rfl, rfl, fun hne => absurd rfl hne⟩, rfl, rfl⟩

theorem throw {P : Bytes → α → Prop} (cause : Malformed) :
    Takes (throw cause : Decoder α) P := by
  intro c a c' h
  cases h

/-- **What is told of a sequence**: behind the block of the first read is that of the second. -/
theorem bind {d : Decoder α} {f : α → Decoder β} {P : Bytes → α → Prop}
    {Q : α → Bytes → β → Prop} (hd : Takes d P) (hf : ∀ a, Takes (f a) (Q a)) :
    Takes (d >>= f) fun block b =>
      ∃ a front back, block = front ++ back ∧ P front a ∧ Q a back b := by
  intro c b c'' h
  obtain ⟨a, c', ha, hb⟩ := run_bind_eq_ok.1 h
  obtain ⟨front, hfront, hP⟩ := hd c a c' ha
  obtain ⟨back, hback, hQ⟩ := hf a c' b c'' hb
  exact ⟨front ++ back, hfront.trans hback, a, front, back, rfl, hP, hQ⟩

theorem map {d : Decoder α} {P : Bytes → α → Prop} (f : α → β) (hd : Takes d P) :
    Takes (f <$> d) fun block b => ∃ a, P block a ∧ f a = b := by
  intro c b c' h
  obtain ⟨a, ha, hb⟩ := run_map_eq_ok.1 h
  obtain ⟨block, hpasses, hblock⟩ := hd c a c' ha
  exact ⟨block, hpasses, a, hblock, hb⟩

theorem take (size : Int) :
    Takes (Cursor.take size) fun block a => a = block ∧ (block.length : Int) = size := by
  intro c a c' h
  unfold Cursor.take at h
  simp only [StateT.run] at h
  split at h
  · cases h
  · next hsize =>
    rw [not_or, Int.not_lt, not_not] at hsize
    cases htake : takeExactly size.toNat c.ahead with
    | none => simp [htake] at h
    | some found =>
        obtain ⟨block, rest⟩ := found
        simp only [htake, Except.ok.injEq, Prod.mk.injEq] at h
        obtain ⟨rfl, rfl⟩ := h
        obtain ⟨hahead, hlength⟩ := takeExactly_eq_some htake
        refine ⟨block, ⟨hahead, ?_, rfl, fun _ => hsize.2⟩, rfl, ?_⟩
        · rw [hlength]
        · rw [hlength, Int.toNat_of_nonneg hsize.1]

theorem unsigned (size : Nat) : Takes (Cursor.unsigned size) fun block n =>
    block.length = size ∧ n = bigEndian block :=
  ((take size).map bigEndian).mono fun _ _ ⟨_, ⟨hblock, hlength⟩, hn⟩ =>
    ⟨Int.ofNat.inj hlength, by rw [← hn, hblock]⟩

end Takes

end Decoder

end Unjar
