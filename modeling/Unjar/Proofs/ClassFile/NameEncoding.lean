import Unjar.Proofs.ClassFile.Reading

/-!
The encodings in which a name may be written.

A class file writes a name in code units, each on its own, and a zero as the pair `C0 80`.  A reader
need not know of units: it puts a zero in the place of each such pair and then reads UTF-8 in which
surrogates are code points like their neighbours.  That is right because `C0` occurs in the bytes of
no code point, so that no pair is found across the bytes of two characters or within those of one.

Main definitions:

* `Unjar.Name.encodeCodePoint` — the UTF-8 of a code point;
* `Unjar.Name.shortenZeros` — a zero in the place of each pair;
* `Unjar.Name.Spells` — **which bytes spell a name.**

Main results:

* `Unjar.Name.decode_eq_some_iff` — the name that is read is the one that the bytes spell;
* `Unjar.Name.spells_encodeUnits` — code units spell themselves;
* `Unjar.Name.decode_encoded` — **names are read as they were written**, in either encoding.
-/

set_option autoImplicit false

namespace Unjar

/-- A string of the constant pool is read as the name that its bytes are read as. -/
theorem Constant.reads_name {raw : Bytes} {name : Name} (hsize : raw.length < 0x10000)
    (hname : Name.decode raw = some name) (index : Nat) :
    Decoder.Reads (Constant.read index) (Constant.encodeWith raw (.utf8 name)) (.utf8 name) := by
  have hbody : Decoder.Reads Constant.readUtf8 (bytesOfNat 2 raw.length ++ raw) (.utf8 name) := by
    refine (Cursor.reads_u2 hsize).bind ((Cursor.reads_take raw).bind_of_eq_pure ?_)
    simp only [hname]
  exact (Cursor.reads_u1 (tag_lt (.utf8 name))).bind hbody

namespace Name

/-! ### Ordinary encodings -/

/-- **The UTF-8 of a code point**, surrogates like their neighbours. -/
def encodeCodePoint (p : Nat) : Bytes :=
  if p < 0x80 then [UInt8.ofNat p]
  else if p < 0x800 then [UInt8.ofNat (0xC0 + p / 64), UInt8.ofNat (0x80 + p % 64)]
  else if p < 0x10000 then
    [UInt8.ofNat (0xE0 + p / 4096), UInt8.ofNat (0x80 + p / 64 % 64), UInt8.ofNat (0x80 + p % 64)]
  else
    [UInt8.ofNat (0xF0 + p / 262144), UInt8.ofNat (0x80 + p / 4096 % 64),
      UInt8.ofNat (0x80 + p / 64 % 64), UInt8.ofNat (0x80 + p % 64)]

/-- The bytes with a zero in the place of each pair `C0 80`, from the front on. -/
def shortenZeros : Bytes → Bytes
  | [] => []
  | [a] => [a]
  | a :: b :: r =>
    if a = 0xC0 ∧ b = 0x80 then 0 :: shortenZeros r else a :: shortenZeros (b :: r)

/-- **Bytes spell a name** if they are its UTF-8 once each pair `C0 80` is a zero. -/
structure Spells (bytes : Bytes) (n : Name) : Prop where
  encoded : shortenZeros bytes = n.flatMap encodeCodePoint
  codePoints : ∀ p : Nat, p ∈ n → p ≤ 0x10FFFF

variable {a b c d : UInt8} {front r bytes : Bytes} {p : Nat} {n : Name}

theorem encodeCodePoint_one (ha : a.toNat < 0x80) : encodeCodePoint a.toNat = [a] := by
  rw [encodeCodePoint, if_pos ha, UInt8.ofNat_toNat]

theorem encodeCodePoint_two (halow : 0xC2 ≤ a.toNat) (hahigh : a.toNat < 0xE0)
    (hblow : 0x80 ≤ b.toNat) (hbhigh : b.toNat ≤ 0xBF)
    (hp : (a.toNat - 0xC0) * 64 + (b.toNat - 0x80) = p) : encodeCodePoint p = [a, b] := by
  have ha : 0xC0 + p / 64 = a.toNat := by omega
  have hb : 0x80 + p % 64 = b.toNat := by omega
  rw [encodeCodePoint, if_neg (by omega), if_pos (by omega), ha, hb, UInt8.ofNat_toNat,
    UInt8.ofNat_toNat]

theorem encodeCodePoint_three (halow : 0xE0 ≤ a.toNat) (hahigh : a.toNat < 0xF0)
    (hblow : 0x80 ≤ b.toNat) (hbhigh : b.toNat ≤ 0xBF) (hclow : 0x80 ≤ c.toNat)
    (hchigh : c.toNat ≤ 0xBF)
    (hp : ((a.toNat - 0xE0) * 64 + (b.toNat - 0x80)) * 64 + (c.toNat - 0x80) = p)
    (hlong : 0x800 ≤ p) : encodeCodePoint p = [a, b, c] := by
  have ha : 0xE0 + p / 4096 = a.toNat := by omega
  have hb : 0x80 + p / 64 % 64 = b.toNat := by omega
  have hc : 0x80 + p % 64 = c.toNat := by omega
  rw [encodeCodePoint, if_neg (by omega), if_neg (by omega), if_pos (by omega), ha, hb, hc,
    UInt8.ofNat_toNat, UInt8.ofNat_toNat, UInt8.ofNat_toNat]

theorem encodeCodePoint_four (halow : 0xF0 ≤ a.toNat) (hblow : 0x80 ≤ b.toNat)
    (hbhigh : b.toNat ≤ 0xBF) (hclow : 0x80 ≤ c.toNat) (hchigh : c.toNat ≤ 0xBF)
    (hdlow : 0x80 ≤ d.toNat) (hdhigh : d.toNat ≤ 0xBF)
    (hp : (((a.toNat - 0xF0) * 64 + (b.toNat - 0x80)) * 64 + (c.toNat - 0x80)) * 64 +
      (d.toNat - 0x80) = p) (hlong : 0x10000 ≤ p) : encodeCodePoint p = [a, b, c, d] := by
  have ha : 0xF0 + p / 262144 = a.toNat := by omega
  have hb : 0x80 + p / 4096 % 64 = b.toNat := by omega
  have hc : 0x80 + p / 64 % 64 = c.toNat := by omega
  have hd : 0x80 + p % 64 = d.toNat := by omega
  rw [encodeCodePoint, if_neg (by omega), if_neg (by omega), if_neg (by omega), ha, hb, hc, hd,
    UInt8.ofNat_toNat, UInt8.ofNat_toNat, UInt8.ofNat_toNat, UInt8.ofNat_toNat]

/-- A byte of a code point is that code point, or not below `80` and not `C0`. -/
theorem of_mem_encodeCodePoint (hp : p ≤ 0x10FFFF) :
    ∀ a ∈ encodeCodePoint p,
      p < 0x80 ∧ a.toNat = p ∨ 0x80 ≤ a.toNat ∧ a.toNat ≠ 0xC0 := by
  have hone : p < 0x80 → (UInt8.ofNat p).toNat = p := fun h =>
    UInt8.toNat_ofNat_of_lt' (Nat.lt_trans h (by decide))
  have hmany {k : Nat} (hlow : 0x80 ≤ k) (hhigh : k < 256) (hne : k ≠ 0xC0) :
      p < 0x80 ∧ (UInt8.ofNat k).toNat = p ∨
        0x80 ≤ (UInt8.ofNat k).toNat ∧ (UInt8.ofNat k).toNat ≠ 0xC0 := by
    rw [UInt8.toNat_ofNat_of_lt' hhigh]
    exact .inr ⟨hlow, hne⟩
  unfold encodeCodePoint
  split
  · next h =>
    rw [List.forall_mem_singleton]
    exact .inl ⟨h, hone h⟩
  · split
    · simp only [List.mem_cons, List.not_mem_nil, or_false, forall_eq_or_imp, forall_eq]
      refine ⟨hmany ?_ ?_ ?_, hmany ?_ ?_ ?_⟩ <;> omega
    · split
      · simp only [List.mem_cons, List.not_mem_nil, or_false, forall_eq_or_imp, forall_eq]
        refine ⟨hmany ?_ ?_ ?_, hmany ?_ ?_ ?_, hmany ?_ ?_ ?_⟩ <;> omega
      · simp only [List.mem_cons, List.not_mem_nil, or_false, forall_eq_or_imp, forall_eq]
        refine ⟨hmany ?_ ?_ ?_, hmany ?_ ?_ ?_, hmany ?_ ?_ ?_, hmany ?_ ?_ ?_⟩ <;> omega

/-! ### Zeros in two bytes -/

theorem shortenZeros_cons_of_ne (h : a.toNat ≠ 0xC0) (r : Bytes) :
    shortenZeros (a :: r) = a :: shortenZeros r := by
  cases r with
  | nil => rfl
  | cons b r => rw [shortenZeros, if_neg fun hpair => h (congrArg UInt8.toNat hpair.1)]

/-- **Where no byte is `C0` nothing is shortened.** -/
theorem shortenZeros_append_of_ne (h : ∀ a ∈ front, a.toNat ≠ 0xC0) (r : Bytes) :
    shortenZeros (front ++ r) = front ++ shortenZeros r := by
  induction front with
  | nil => rfl
  | cons a front ih =>
      obtain ⟨ha, hfront⟩ := List.forall_mem_cons.mp h
      rw [List.cons_append, shortenZeros_cons_of_ne ha, ih hfront, List.cons_append]

/-- A byte was there before, unless it is a zero that came from its pair. -/
theorem exists_of_shortenZeros_eq_cons (h : shortenZeros bytes = a :: r) :
    ∃ behind, (bytes = a :: behind ∨ a = 0 ∧ bytes = 0xC0 :: 0x80 :: behind) ∧
      shortenZeros behind = r := by
  unfold shortenZeros at h
  split at h
  · cases h
  · cases h
    exact ⟨[], .inl rfl, rfl⟩
  · split at h
    · next hpair =>
      obtain ⟨rfl, rfl⟩ := hpair
      cases h
      exact ⟨_, .inr ⟨rfl, rfl⟩, rfl⟩
    · cases h
      exact ⟨_, .inl rfl, rfl⟩

theorem eq_nil_of_shortenZeros_eq_nil (h : shortenZeros bytes = []) : bytes = [] := by
  unfold shortenZeros at h
  split at h
  · rfl
  · cases h
  · split at h <;> cases h

/-- Bytes other than zero were there before. -/
theorem exists_of_shortenZeros_eq_append (hne : ∀ a ∈ front, a ≠ 0)
    (h : shortenZeros bytes = front ++ r) :
    ∃ behind, bytes = front ++ behind ∧ shortenZeros behind = r := by
  induction front generalizing bytes with
  | nil => exact ⟨bytes, rfl, h⟩
  | cons a front ih =>
      obtain ⟨ha, hfront⟩ := List.forall_mem_cons.mp hne
      obtain ⟨behind, rfl | ⟨hzero, -⟩, hbehind⟩ := exists_of_shortenZeros_eq_cons h
      · obtain ⟨rest, rfl, hrest⟩ := ih hfront hbehind
        exact ⟨rest, rfl, hrest⟩
      · exact absurd hzero ha

/-! ### What is read was spelled -/

theorem of_tailBits_eq_some {x : Nat} (h : tailBits b = some x) :
    0x80 ≤ b.toNat ∧ b.toNat ≤ 0xBF ∧ b.toNat - 0x80 = x := by
  unfold tailBits at h
  split at h
  · next hrange =>
    simp only [UInt8.le_iff_toNat_le] at hrange
    exact ⟨hrange.1, hrange.2, Option.some.inj h⟩
  · cases h

namespace Spells

theorem nil : Spells [] [] := ⟨rfl, fun _ h => absurd h List.not_mem_nil⟩

/-- One code point more. -/
theorem append (hfront : encodeCodePoint p = front) (hp : p ≤ 0x10FFFF)
    (h : Spells r n) : Spells (front ++ r) (p :: n) := by
  have hpair : ∀ a ∈ front, a.toNat ≠ 0xC0 := by
    intro a ha
    have := of_mem_encodeCodePoint hp a (hfront ▸ ha)
    omega
  refine ⟨?_, List.forall_mem_cons.mpr ⟨hp, h.codePoints⟩⟩
  rw [shortenZeros_append_of_ne hpair, h.encoded, List.flatMap_cons, hfront]

/-- One zero more, in two bytes. -/
theorem zero_cons (h : Spells r n) : Spells (0xC0 :: 0x80 :: r) (0 :: n) := by
  refine ⟨?_, List.forall_mem_cons.mpr ⟨Nat.zero_le _, h.codePoints⟩⟩
  rw [shortenZeros, if_pos ⟨rfl, rfl⟩, h.encoded]
  rfl

end Spells

/-- **What is read was spelled.** -/
theorem spells_of_decode (h : decode bytes = some n) : Spells bytes n := by
  fun_induction decode bytes generalizing n with
  | case1 =>
      cases h
      exact .nil
  | case2 a r ha ih =>
      obtain ⟨m, hm, rfl⟩ := Option.map_eq_some_iff.mp h
      simp only [UInt8.lt_iff_toNat_lt, UInt8.reduceToNat] at ha
      exact (ih hm).append (encodeCodePoint_one ha) (by omega)
  | case4 a ha b r hzero hpair ih =>
      obtain ⟨m, hm, rfl⟩ := Option.map_eq_some_iff.mp h
      rw [beq_iff_eq] at hzero hpair
      subst hzero hpair
      exact (ih hm).zero_cons
  | case8 a ha b r hzero x hb hlow hhigh ih =>
      obtain ⟨m, hm, rfl⟩ := Option.map_eq_some_iff.mp h
      simp only [UInt8.lt_iff_toNat_lt, UInt8.reduceToNat, Nat.not_lt] at hlow hhigh
      obtain ⟨hblow, hbhigh, rfl⟩ := of_tailBits_eq_some hb
      exact (ih hm).append (encodeCodePoint_two hlow hhigh hblow hbhigh rfl) (by omega)
  | case12 a ha b hzero x hb hlow hmiddle c r y hc hhigh p hlong =>
      rename_i ih
      obtain ⟨m, hm, rfl⟩ := Option.map_eq_some_iff.mp h
      simp only [UInt8.lt_iff_toNat_lt, UInt8.reduceToNat, Nat.not_lt] at hmiddle hhigh
      rw [Nat.not_lt] at hlong
      obtain ⟨hblow, hbhigh, rfl⟩ := of_tailBits_eq_some hb
      obtain ⟨hclow, hchigh, rfl⟩ := of_tailBits_eq_some hc
      exact (ih hm).append
        (encodeCodePoint_three hmiddle hhigh hblow hbhigh hclow hchigh rfl hlong) (by omega)
  | case16 a ha b hzero x hb hlow hmiddle c y hc hhigh d r z hd p hrange =>
      rename_i ih
      obtain ⟨m, hm, rfl⟩ := Option.map_eq_some_iff.mp h
      simp only [UInt8.lt_iff_toNat_lt, UInt8.reduceToNat, Nat.not_lt] at hhigh
      obtain ⟨hlong, hmax⟩ := not_or.mp hrange
      rw [Nat.not_lt] at hlong hmax
      obtain ⟨hblow, hbhigh, rfl⟩ := of_tailBits_eq_some hb
      obtain ⟨hclow, hchigh, rfl⟩ := of_tailBits_eq_some hc
      obtain ⟨hdlow, hdhigh, rfl⟩ := of_tailBits_eq_some hd
      exact (ih hm).append (encodeCodePoint_four hhigh hblow hbhigh hclow hchigh hdlow hdhigh rfl
        hlong) hmax
  | _ => cases h

/-! ### What is spelled is read -/

theorem decode_zero (r : Bytes) : decode (0xC0 :: 0x80 :: r) = (decode r).map (0 :: ·) := by
  rw [decode]
  rfl

/-- The bytes of a code point are read as it, whatever follows them. -/
theorem decode_encodeCodePoint (hp : p ≤ 0x10FFFF) (r : Bytes) :
    decode (encodeCodePoint p ++ r) = (decode r).map (p :: ·) := by
  have hbyte {k : Nat} (h : k < 256) : (UInt8.ofNat k).toNat = k := UInt8.toNat_ofNat_of_lt' h
  unfold encodeCodePoint
  split
  · next h =>
    have h₀ := hbyte (k := p) (by omega)
    rw [List.singleton_append, decode_one r (by omega), h₀]
  · split
    · have h₀ := hbyte (k := 0xC0 + p / 64) (by omega)
      have h₁ := hbyte (k := 0x80 + p % 64) (by omega)
      have hread := decode_two (a := UInt8.ofNat (0xC0 + p / 64)) (b := UInt8.ofNat (0x80 + p % 64))
        r (by omega) (by omega) (by omega) (by omega)
      have hvalue : (0xC0 + p / 64 - 0xC0) * 64 + (0x80 + p % 64 - 0x80) = p := by omega
      rw [h₀, h₁, hvalue] at hread
      exact hread
    · split
      · have h₀ := hbyte (k := 0xE0 + p / 4096) (by omega)
        have h₁ := hbyte (k := 0x80 + p / 64 % 64) (by omega)
        have h₂ := hbyte (k := 0x80 + p % 64) (by omega)
        have hvalue : ((0xE0 + p / 4096 - 0xE0) * 64 + (0x80 + p / 64 % 64 - 0x80)) * 64 +
            (0x80 + p % 64 - 0x80) = p := by omega
        have hread := decode_three (a := UInt8.ofNat (0xE0 + p / 4096))
          (b := UInt8.ofNat (0x80 + p / 64 % 64)) (c := UInt8.ofNat (0x80 + p % 64)) r
          (by omega) (by omega) (by omega) (by omega) (by omega) (by omega)
          (by rw [h₀, h₁, h₂, hvalue]; omega)
        rw [h₀, h₁, h₂, hvalue] at hread
        exact hread
      · have h₀ := hbyte (k := 0xF0 + p / 262144) (by omega)
        have h₁ := hbyte (k := 0x80 + p / 4096 % 64) (by omega)
        have h₂ := hbyte (k := 0x80 + p / 64 % 64) (by omega)
        have h₃ := hbyte (k := 0x80 + p % 64) (by omega)
        exact decode_four r (by omega) (by omega) (by omega) (by omega) (by omega) (by omega)
          (by omega) (by rw [h₀, h₁, h₂, h₃]; omega) (by omega) hp

/-- What spells a name begins with what is read as its first code point. -/
theorem Spells.exists_behind (h : Spells bytes (p :: n)) :
    ∃ behind, decode bytes = (decode behind).map (p :: ·) ∧ Spells behind n := by
  obtain ⟨hp, hn⟩ := List.forall_mem_cons.mp h.codePoints
  have hencoded : shortenZeros bytes = encodeCodePoint p ++ n.flatMap encodeCodePoint := h.encoded
  by_cases hzero : p = 0
  · subst hzero
    obtain ⟨behind, rfl | ⟨-, rfl⟩, hbehind⟩ :=
      exists_of_shortenZeros_eq_cons (a := 0) hencoded
    · exact ⟨behind, decode_one behind (by decide), hbehind, hn⟩
    · exact ⟨behind, decode_zero behind, hbehind, hn⟩
  · have hne : ∀ a ∈ encodeCodePoint p, a ≠ 0 := by
      rintro a ha rfl
      have := of_mem_encodeCodePoint hp 0 ha
      rw [UInt8.toNat_zero] at this
      omega
    obtain ⟨behind, rfl, hbehind⟩ := exists_of_shortenZeros_eq_append hne hencoded
    exact ⟨behind, decode_encodeCodePoint hp behind, hbehind, hn⟩

/-- **Reading a name** finds the one that its bytes spell, and finds one only where there is one. -/
theorem decode_eq_some_iff : decode bytes = some n ↔ Spells bytes n := by
  constructor
  · exact spells_of_decode
  · intro h
    induction n generalizing bytes with
    | nil => rw [eq_nil_of_shortenZeros_eq_nil h.encoded, decode]
    | cons p n ih =>
        obtain ⟨behind, hdecode, hbehind⟩ := h.exists_behind
        rw [hdecode, ih hbehind]
        rfl

/-! ### Code units -/

/-- A unit other than zero is encoded like a code point. -/
theorem encodeUnit_of_ne {u : UInt16} (h : u.toNat ≠ 0) :
    encodeUnit u = encodeCodePoint u.toNat := by
  have hsize : u.toNat < 0x10000 := u.toNat_lt
  have hne : (u.toNat != 0) = true := by simpa using h
  simp only [encodeUnit, encodeCodePoint, hne, Bool.true_and, decide_eq_true_eq, if_pos hsize]

/-- **Code units spell themselves**, surrogates among them. -/
theorem spells_encodeUnits (units : List UInt16) :
    Spells (encodeUnits units) (units.map UInt16.toNat) := by
  induction units with
  | nil => exact .nil
  | cons u units ih =>
      rw [encodeUnits, List.flatMap_cons, List.map_cons]
      by_cases hzero : u = 0
      · subst hzero
        exact ih.zero_cons
      · have hne : u.toNat ≠ 0 := fun h => hzero (UInt16.toNat_inj.mp h)
        have hsize : u.toNat < 0x10000 := u.toNat_lt
        exact ih.append (encodeUnit_of_ne hne).symm (by omega)

/-- **Names are read as they were written.**  Code units come back one by one, whether zeros,
surrogates in pairs or lone ones, so that different names are read as different ones; the ordinary
encoding of a text comes back as that text; and a constant pool that holds either holds that
name. -/
theorem decode_encoded :
    (∀ units : List UInt16, decode (encodeUnits units) = some (units.map UInt16.toNat)) ∧
      (∀ units others : List UInt16,
        decode (encodeUnits units) = decode (encodeUnits others) → units = others) ∧
      (∀ t : Text, decode (encodeUtf8 t) = some (Text.codePoints t)) ∧
      (∀ (units : List UInt16) (index : Nat), (encodeUnits units).length < 0x10000 →
        Decoder.Reads (Constant.read index)
          (Constant.encodeWith (encodeUnits units) (.utf8 (units.map UInt16.toNat)))
          (.utf8 (units.map UInt16.toNat))) ∧
      ∀ (t : Text) (index : Nat), (encodeUtf8 t).length < 0x10000 →
        Decoder.Reads (Constant.read index) (Entry.text t).encode (.utf8 (Text.codePoints t)) := by
  have hunits (units : List UInt16) :
      decode (encodeUnits units) = some (units.map UInt16.toNat) :=
    decode_eq_some_iff.mpr (spells_encodeUnits units)
  refine ⟨hunits, fun units others h => ?_, decode_encodeUtf8, fun units index hsize => ?_,
    fun t index hsize => ?_⟩
  · rw [hunits, hunits, Option.some_inj] at h
    exact List.map_injective_iff.mpr (fun _ _ => UInt16.toNat_inj.mp) h
  · exact Constant.reads_name hsize (hunits units) index
  · exact Constant.reads_name hsize (decode_encodeUtf8 t) index

/-- A zero, a pair of surrogates, and a lone one in front of a letter. -/
def sampleUnits : List UInt16 := [0, 0xD83D, 0xDE00, 0xDC00, 0x41]

theorem decode_encoded_sample :
    encodeUnits sampleUnits =
        [0xC0, 0x80, 0xED, 0xA0, 0xBD, 0xED, 0xB8, 0x80, 0xED, 0xB0, 0x80, 0x41] ∧
      Decoder.Reads (Constant.read 1)
        (Constant.encodeWith (encodeUnits sampleUnits) (.utf8 (sampleUnits.map UInt16.toNat)))
        (.utf8 [0, 0xD83D, 0xDE00, 0xDC00, 0x41]) ∧
      Decoder.Reads (Constant.read 1) (Entry.text ['é', '😀']).encode
        (.utf8 [0xE9, 0x1F600]) := by
  obtain ⟨-, -, -, hunits, htexts⟩ := decode_encoded
  exact ⟨by decide, hunits sampleUnits 1 (by decide), htexts _ 1 (by decide)⟩

end Name

end Unjar
