import Unjar.ClassFile.Name

/-!
Reading names back.

Reading a name goes from character to character: a first byte tells how many follow it, and each of
those adds six bits.  The steps are stated here one by one, for encodings of one to four bytes, and
put together for the ordinary encoding of a text.

Main results:

* `Unjar.Name.decode_one`, `Unjar.Name.decode_two`, `Unjar.Name.decode_three`,
  `Unjar.Name.decode_four` — one step of reading;
* `Unjar.Name.decode_encodeUtf8` — **the ordinary encoding of a text is read as that text.**
-/

set_option autoImplicit false

namespace Unjar.Name

/-! ### One step of reading -/

theorem tailBits_eq {b : UInt8} (hlow : 0x80 ≤ b.toNat) (hhigh : b.toNat ≤ 0xBF) :
    tailBits b = some (b.toNat - 0x80) := by
  unfold tailBits
  rw [if_pos]
  simp only [UInt8.le_iff_toNat_le]
  exact ⟨hlow, hhigh⟩

theorem decode_one {a : UInt8} (r : Bytes) (ha : a.toNat < 0x80) :
    decode (a :: r) = (decode r).map (a.toNat :: ·) := by
  have h : a < 0x80 := by simp only [UInt8.lt_iff_toNat_lt]; exact ha
  rw [decode.eq_def]
  exact if_pos h

theorem decode_two {a b : UInt8} (r : Bytes) (halow : 0xC2 ≤ a.toNat) (hahigh : a.toNat < 0xE0)
    (hblow : 0x80 ≤ b.toNat) (hbhigh : b.toNat ≤ 0xBF) :
    decode (a :: b :: r) =
      (decode r).map (((a.toNat - 0xC0) * 64 + (b.toNat - 0x80)) :: ·) := by
  have h₁ : ¬a < 0x80 := by simp only [UInt8.lt_iff_toNat_lt]; change ¬_ < 0x80; omega
  have h₂ : (a == 0xC0) = false := by
    rw [beq_eq_false_iff_ne, Ne, ← UInt8.toNat_inj]; change ¬_ = 0xC0; omega
  have h₃ : ¬a < 0xC2 := by simp only [UInt8.lt_iff_toNat_lt]; change ¬_ < 0xC2; omega
  have h₄ : a < 0xE0 := by simp only [UInt8.lt_iff_toNat_lt]; exact hahigh
  rw [decode, if_neg h₁]
  simp only [h₂, Bool.false_eq_true, if_false, tailBits_eq hblow hbhigh, if_neg h₃, if_pos h₄]

theorem decode_three {a b c : UInt8} (r : Bytes) (halow : 0xE0 ≤ a.toNat)
    (hahigh : a.toNat < 0xF0) (hblow : 0x80 ≤ b.toNat) (hbhigh : b.toNat ≤ 0xBF)
    (hclow : 0x80 ≤ c.toNat) (hchigh : c.toNat ≤ 0xBF)
    (hlong : 0x800 ≤ ((a.toNat - 0xE0) * 64 + (b.toNat - 0x80)) * 64 + (c.toNat - 0x80)) :
    decode (a :: b :: c :: r) = (decode r).map
      ((((a.toNat - 0xE0) * 64 + (b.toNat - 0x80)) * 64 + (c.toNat - 0x80)) :: ·) := by
  have h₁ : ¬a < 0x80 := by simp only [UInt8.lt_iff_toNat_lt]; change ¬_ < 0x80; omega
  have h₂ : (a == 0xC0) = false := by
    rw [beq_eq_false_iff_ne, Ne, ← UInt8.toNat_inj]; change ¬_ = 0xC0; omega
  have h₃ : ¬a < 0xC2 := by simp only [UInt8.lt_iff_toNat_lt]; change ¬_ < 0xC2; omega
  have h₄ : ¬a < 0xE0 := by simp only [UInt8.lt_iff_toNat_lt]; change ¬_ < 0xE0; omega
  have h₅ : a < 0xF0 := by simp only [UInt8.lt_iff_toNat_lt]; exact hahigh
  rw [decode, if_neg h₁]
  simp only [h₂, Bool.false_eq_true, if_false, tailBits_eq hblow hbhigh, tailBits_eq hclow hchigh,
    if_neg h₃, if_neg h₄, if_pos h₅, if_neg (Nat.not_lt.2 hlong)]

theorem decode_four {a b c d : UInt8} (r : Bytes) (halow : 0xF0 ≤ a.toNat)
    (hblow : 0x80 ≤ b.toNat) (hbhigh : b.toNat ≤ 0xBF) (hclow : 0x80 ≤ c.toNat)
    (hchigh : c.toNat ≤ 0xBF) (hdlow : 0x80 ≤ d.toNat) (hdhigh : d.toNat ≤ 0xBF) {p : Nat}
    (hp : (((a.toNat - 0xF0) * 64 + (b.toNat - 0x80)) * 64 + (c.toNat - 0x80)) * 64 +
      (d.toNat - 0x80) = p) (hlong : 0x10000 ≤ p) (hhigh : p ≤ 0x10FFFF) :
    decode (a :: b :: c :: d :: r) = (decode r).map (p :: ·) := by
  have h₁ : ¬a < 0x80 := by simp only [UInt8.lt_iff_toNat_lt]; change ¬_ < 0x80; omega
  have h₂ : (a == 0xC0) = false := by
    rw [beq_eq_false_iff_ne, Ne, ← UInt8.toNat_inj]; change ¬_ = 0xC0; omega
  have h₃ : ¬a < 0xC2 := by simp only [UInt8.lt_iff_toNat_lt]; change ¬_ < 0xC2; omega
  have h₄ : ¬a < 0xE0 := by simp only [UInt8.lt_iff_toNat_lt]; change ¬_ < 0xE0; omega
  have h₅ : ¬a < 0xF0 := by simp only [UInt8.lt_iff_toNat_lt]; change ¬_ < 0xF0; omega
  rw [decode, if_neg h₁]
  simp only [h₂, Bool.false_eq_true, if_false, tailBits_eq hblow hbhigh, tailBits_eq hclow hchigh,
    tailBits_eq hdlow hdhigh, if_neg h₃, if_neg h₄, if_neg h₅, hp]
  have hrange : ¬(p < 0x10000 ∨ 0x10FFFF < p) := by omega
  rw [if_neg hrange]

/-! ### Texts -/

/-- A character of a text is read back, whatever follows it. -/
theorem decode_utf8EncodeChar (c : Char) (r : Bytes) :
    decode (String.utf8EncodeChar c ++ r) = (decode r).map (c.toNat :: ·) := by
  have hbyte {n : Nat} (h : n < 256) : (UInt8.ofNat n).toNat = n := by
    rw [UInt8.toNat_ofNat']
    exact Nat.mod_eq_of_lt h
  have hmax : c.toNat ≤ 0x10FFFF := by
    have := c.valid
    simp only [UInt32.isValidChar, Nat.isValidChar] at this
    change c.val.toNat ≤ _
    omega
  have hv : c.toNat = c.val.toNat := rfl
  unfold String.utf8EncodeChar
  rw [hv] at hmax ⊢
  generalize c.val.toNat = v at hmax ⊢
  simp only
  -- the lengths meet at `0x80`, `0x800` and `0x10000`, where the bounds of `decode` meet as well
  split
  · next h =>
    have h0 := hbyte (n := v) (by omega)
    rw [List.singleton_append, decode_one r (by omega), h0]
  · next h =>
    split
    · next h' =>
      have h0 := hbyte (n := v / 64 % 0x20 + 0xC0) (by omega)
      have h1 := hbyte (n := v % 0x40 + 0x80) (by omega)
      have := decode_two (a := UInt8.ofNat (v / 64 % 0x20 + 0xC0))
        (b := UInt8.ofNat (v % 0x40 + 0x80)) r (by omega) (by omega) (by omega) (by omega)
      rw [h0, h1] at this
      have hv : (v / 64 % 0x20 + 0xC0 - 0xC0) * 64 + (v % 0x40 + 0x80 - 0x80) = v := by omega
      rw [hv] at this
      exact this
    · next h' =>
      split
      · next h'' =>
        have h0 := hbyte (n := v / 4096 % 0x10 + 0xE0) (by omega)
        have h1 := hbyte (n := v / 64 % 0x40 + 0x80) (by omega)
        have h2 := hbyte (n := v % 0x40 + 0x80) (by omega)
        have hv : ((v / 4096 % 0x10 + 0xE0 - 0xE0) * 64 + (v / 64 % 0x40 + 0x80 - 0x80)) * 64 +
            (v % 0x40 + 0x80 - 0x80) = v := by omega
        have := decode_three (a := UInt8.ofNat (v / 4096 % 0x10 + 0xE0))
          (b := UInt8.ofNat (v / 64 % 0x40 + 0x80)) (c := UInt8.ofNat (v % 0x40 + 0x80)) r
          (by omega) (by omega) (by omega) (by omega) (by omega) (by omega)
          (by rw [h0, h1, h2, hv]; omega)
        rw [h0, h1, h2, hv] at this
        exact this
      · next h'' =>
        have h0 := hbyte (n := v / 262144 % 0x08 + 0xF0) (by omega)
        have h1 := hbyte (n := v / 4096 % 0x40 + 0x80) (by omega)
        have h2 := hbyte (n := v / 64 % 0x40 + 0x80) (by omega)
        have h3 := hbyte (n := v % 0x40 + 0x80) (by omega)
        exact decode_four r (by omega) (by omega) (by omega) (by omega) (by omega) (by omega)
          (by omega) (by rw [h0, h1, h2, h3]; omega) (by omega) hmax

/-- **The ordinary encoding of a text is read as that text.** -/
theorem decode_encodeUtf8 (t : Text) : decode (encodeUtf8 t) = some (Text.codePoints t) := by
  induction t with
  | nil => rfl
  | cons c t ih =>
      have hcons : encodeUtf8 (c :: t) = String.utf8EncodeChar c ++ encodeUtf8 t := rfl
      rw [hcons, decode_utf8EncodeChar, ih]
      rfl

end Unjar.Name
