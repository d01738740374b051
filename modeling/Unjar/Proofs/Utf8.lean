import Unjar.Proofs.Text
import Unjar.Text.Utf8

/-!
Texts read back from UTF-8.

The first byte of a character announces how many follow and bounds the second; each byte that
follows adds six bits.  The bytes of a character therefore make one part, whatever comes after them,
and a text is read back character by character.

Main results:

* `Unjar.Utf8.lead_two`, `Unjar.Utf8.lead_three`, `Unjar.Utf8.lead_four` — what first bytes announce;
* `Unjar.Utf8.partsFrom_utf8EncodeChar` — the bytes of a character make one part;
* `Unjar.Utf8.decode_encode` — **a text is read back**.
-/

set_option autoImplicit false

namespace Unjar.Utf8

section

variable {b : UInt8}

/-! ### First bytes -/

theorem lead_one (hb : b.toNat < 0x80) : lead b = .single (Char.ofNat b.toNat) := by
  have h : b < 0x80 := by simp only [UInt8.lt_iff_toNat_lt]; exact hb
  rw [lead, if_pos h]

theorem lead_two (hlow : 0xC2 ≤ b.toNat) (hhigh : b.toNat < 0xE0) :
    lead b = .opens ⟨1, 0x80, 0xBF, b.toNat - 0xC0⟩ := by
  have h₁ : ¬b < 0x80 := by simp only [UInt8.lt_iff_toNat_lt]; change ¬_ < 0x80; omega
  have h₂ : ¬b < 0xC2 := by simp only [UInt8.lt_iff_toNat_lt]; change ¬_ < 0xC2; omega
  have h₃ : b < 0xE0 := by simp only [UInt8.lt_iff_toNat_lt]; exact hhigh
  rw [lead, if_neg h₁, if_neg h₂, if_pos h₃]

/-- The second of three bytes has a bound of its own behind the least first byte, and behind the one
that surrogates would begin with. -/
theorem lead_three (hlow : 0xE0 ≤ b.toNat) (hhigh : b.toNat < 0xF0) :
    lead b = .opens ⟨2, if b.toNat = 0xE0 then 0xA0 else 0x80,
      if b.toNat = 0xED then 0x9F else 0xBF, b.toNat - 0xE0⟩ := by
  have h₁ : ¬b < 0x80 := by simp only [UInt8.lt_iff_toNat_lt]; change ¬_ < 0x80; omega
  have h₂ : ¬b < 0xC2 := by simp only [UInt8.lt_iff_toNat_lt]; change ¬_ < 0xC2; omega
  have h₃ : ¬b < 0xE0 := by simp only [UInt8.lt_iff_toNat_lt]; change ¬_ < 0xE0; omega
  have h₄ : b < 0xF0 := by simp only [UInt8.lt_iff_toNat_lt]; exact hhigh
  rw [lead, if_neg h₁, if_neg h₂, if_neg h₃]
  by_cases hfirst : b.toNat = 0xE0
  · obtain rfl : b = 0xE0 := UInt8.toNat_inj.mp hfirst
    rfl
  · have hne : ¬(b == 0xE0) = true := by
      rw [beq_iff_eq]
      rintro rfl
      exact hfirst rfl
    rw [if_neg hne, if_neg hfirst]
    by_cases hsurrogate : b.toNat = 0xED
    · obtain rfl : b = 0xED := UInt8.toNat_inj.mp hsurrogate
      rfl
    · have hne' : ¬(b == 0xED) = true := by
        rw [beq_iff_eq]
        rintro rfl
        exact hsurrogate rfl
      rw [if_neg hne', if_pos h₄, if_neg hsurrogate]

/-- The second of four bytes has a bound of its own behind the least and the greatest first byte. -/
theorem lead_four (hlow : 0xF0 ≤ b.toNat) (hhigh : b.toNat ≤ 0xF4) :
    lead b = .opens ⟨3, if b.toNat = 0xF0 then 0x90 else 0x80,
      if b.toNat = 0xF4 then 0x8F else 0xBF, b.toNat - 0xF0⟩ := by
  have hcases : b = 0xF0 ∨ b = 0xF1 ∨ b = 0xF2 ∨ b = 0xF3 ∨ b = 0xF4 := by
    simp only [← UInt8.toNat_inj]
    change _ = 0xF0 ∨ _ = 0xF1 ∨ _ = 0xF2 ∨ _ = 0xF3 ∨ _ = 0xF4
    omega
  rcases hcases with rfl | rfl | rfl | rfl | rfl <;> rfl

/-! ### Bytes that follow -/

/-- A byte that adds bits to a character of which more is owed. -/
theorem partsFrom_continue {p : Pending} (r : Bytes) (hlow : p.low.toNat ≤ b.toNat)
    (hhigh : b.toNat ≤ p.high.toNat) (howed : 1 < p.owed) :
    partsFrom (some p) (b :: r) =
      partsFrom (some ⟨p.owed - 1, 0x80, 0xBF, p.bits * 64 + (b.toNat - 0x80)⟩) r := by
  have hin : p.low ≤ b ∧ b ≤ p.high := by
    simp only [UInt8.le_iff_toNat_le]
    exact ⟨hlow, hhigh⟩
  rw [partsFrom, if_pos hin, if_neg (by omega)]

/-- The last byte of a character. -/
theorem partsFrom_last {p : Pending} (r : Bytes) (hlow : p.low.toNat ≤ b.toNat)
    (hhigh : b.toNat ≤ p.high.toNat) (howed : p.owed = 1) :
    partsFrom (some p) (b :: r) =
      some (Char.ofNat (p.bits * 64 + (b.toNat - 0x80))) :: partsFrom none r := by
  have hin : p.low ≤ b ∧ b ≤ p.high := by
    simp only [UInt8.le_iff_toNat_le]
    exact ⟨hlow, hhigh⟩
  rw [partsFrom, if_pos hin, if_pos (by omega)]

/-! ### Parts -/

theorem partsFrom_one (r : Bytes) (hb : b.toNat < 0x80) :
    partsFrom none (b :: r) = some (Char.ofNat b.toNat) :: partsFrom none r := by
  rw [partsFrom, lead_one hb]

theorem partsFrom_two {a : UInt8} (r : Bytes) (halow : 0xC2 ≤ a.toNat) (hahigh : a.toNat < 0xE0)
    (hlow : 0x80 ≤ b.toNat) (hhigh : b.toNat ≤ 0xBF) :
    partsFrom none (a :: b :: r) =
      some (Char.ofNat ((a.toNat - 0xC0) * 64 + (b.toNat - 0x80))) :: partsFrom none r := by
  rw [partsFrom, lead_two halow hahigh]
  exact partsFrom_last r hlow hhigh rfl

theorem partsFrom_three {a c : UInt8} (r : Bytes) (halow : 0xE0 ≤ a.toNat) (hahigh : a.toNat < 0xF0)
    (hlow : 0x80 ≤ b.toNat) (hhigh : b.toNat ≤ 0xBF) (hlong : a.toNat = 0xE0 → 0xA0 ≤ b.toNat)
    (hsurrogate : a.toNat = 0xED → b.toNat ≤ 0x9F) (hclow : 0x80 ≤ c.toNat)
    (hchigh : c.toNat ≤ 0xBF) :
    partsFrom none (a :: b :: c :: r) =
      some (Char.ofNat (((a.toNat - 0xE0) * 64 + (b.toNat - 0x80)) * 64 + (c.toNat - 0x80))) ::
        partsFrom none r := by
  have hfrom : (if a.toNat = 0xE0 then (0xA0 : UInt8) else 0x80).toNat ≤ b.toNat := by
    split
    · next ha => exact hlong ha
    · exact hlow
  have hto : b.toNat ≤ (if a.toNat = 0xED then (0x9F : UInt8) else 0xBF).toNat := by
    split
    · next ha => exact hsurrogate ha
    · exact hhigh
  rw [partsFrom, lead_three halow hahigh]
  dsimp only
  rw [partsFrom_continue _ hfrom hto (Nat.lt_succ_self 1)]
  exact partsFrom_last r hclow hchigh rfl

theorem partsFrom_four {a c d : UInt8} (r : Bytes) (halow : 0xF0 ≤ a.toNat)
    (hahigh : a.toNat ≤ 0xF4) (hlow : 0x80 ≤ b.toNat) (hhigh : b.toNat ≤ 0xBF)
    (hlong : a.toNat = 0xF0 → 0x90 ≤ b.toNat) (hbeyond : a.toNat = 0xF4 → b.toNat ≤ 0x8F)
    (hclow : 0x80 ≤ c.toNat) (hchigh : c.toNat ≤ 0xBF) (hdlow : 0x80 ≤ d.toNat)
    (hdhigh : d.toNat ≤ 0xBF) :
    partsFrom none (a :: b :: c :: d :: r) =
      some (Char.ofNat ((((a.toNat - 0xF0) * 64 + (b.toNat - 0x80)) * 64 + (c.toNat - 0x80)) * 64 +
        (d.toNat - 0x80))) :: partsFrom none r := by
  have hfrom : (if a.toNat = 0xF0 then (0x90 : UInt8) else 0x80).toNat ≤ b.toNat := by
    split
    · next ha => exact hlong ha
    · exact hlow
  have hto : b.toNat ≤ (if a.toNat = 0xF4 then (0x8F : UInt8) else 0xBF).toNat := by
    split
    · next ha => exact hbeyond ha
    · exact hhigh
  rw [partsFrom, lead_four halow hahigh]
  dsimp only
  rw [partsFrom_continue _ hfrom hto (show 1 < 3 by decide)]
  dsimp only
  rw [partsFrom_continue _ (show (0x80 : UInt8).toNat ≤ c.toNat from hclow)
    (show c.toNat ≤ (0xBF : UInt8).toNat from hchigh) (Nat.lt_succ_self 1)]
  exact partsFrom_last r hdlow hdhigh rfl

end

/-! ### Characters and texts -/

/-- **The bytes of a character make one part**, whatever follows them. -/
theorem partsFrom_utf8EncodeChar (c : Char) (r : Bytes) :
    partsFrom none (String.utf8EncodeChar c ++ r) = some c :: partsFrom none r := by
  have hbyte {n : Nat} (h : n < 256) : (UInt8.ofNat n).toNat = n := by
    rw [UInt8.toNat_ofNat']
    exact Nat.mod_eq_of_lt h
  obtain ⟨v, hv⟩ : ∃ v, v = c.val.toNat := ⟨_, rfl⟩
  have hchar : c = Char.ofNat v := hv ▸ (Char.ofNat_toNat c).symm
  have hvalid : v < 0xD800 ∨ 0xDFFF < v ∧ v < 0x110000 := hv ▸ c.valid
  unfold String.utf8EncodeChar
  rw [← hv, hchar]
  simp only
  -- the lengths meet at `0x80`, `0x800` and `0x10000`, where the announcements meet as well
  split
  · next h =>
    have h0 := hbyte (n := v) (by omega)
    rw [List.singleton_append, partsFrom_one r (by omega), h0]
  · next h =>
    split
    · next h' =>
      have h0 := hbyte (n := v / 64 % 0x20 + 0xC0) (by omega)
      have h1 := hbyte (n := v % 0x40 + 0x80) (by omega)
      have hbits : (v / 64 % 0x20 + 0xC0 - 0xC0) * 64 + (v % 0x40 + 0x80 - 0x80) = v := by omega
      have hparts := partsFrom_two (a := UInt8.ofNat (v / 64 % 0x20 + 0xC0))
        (b := UInt8.ofNat (v % 0x40 + 0x80)) r (by omega) (by omega) (by omega) (by omega)
      rw [h0, h1, hbits] at hparts
      exact hparts
    · next h' =>
      split
      · next h'' =>
        have h0 := hbyte (n := v / 4096 % 0x10 + 0xE0) (by omega)
        have h1 := hbyte (n := v / 64 % 0x40 + 0x80) (by omega)
        have h2 := hbyte (n := v % 0x40 + 0x80) (by omega)
        have hbits : ((v / 4096 % 0x10 + 0xE0 - 0xE0) * 64 + (v / 64 % 0x40 + 0x80 - 0x80)) * 64 +
            (v % 0x40 + 0x80 - 0x80) = v := by omega
        have hparts := partsFrom_three (a := UInt8.ofNat (v / 4096 % 0x10 + 0xE0))
          (b := UInt8.ofNat (v / 64 % 0x40 + 0x80)) (c := UInt8.ofNat (v % 0x40 + 0x80)) r
          (by omega) (by omega) (by omega) (by omega) (by omega) (by omega) (by omega) (by omega)
        rw [h0, h1, h2, hbits] at hparts
        exact hparts
      · next h'' =>
        have h0 := hbyte (n := v / 262144 % 0x08 + 0xF0) (by omega)
        have h1 := hbyte (n := v / 4096 % 0x40 + 0x80) (by omega)
        have h2 := hbyte (n := v / 64 % 0x40 + 0x80) (by omega)
        have h3 := hbyte (n := v % 0x40 + 0x80) (by omega)
        have hbits : (((v / 262144 % 0x08 + 0xF0 - 0xF0) * 64 +
            (v / 4096 % 0x40 + 0x80 - 0x80)) * 64 + (v / 64 % 0x40 + 0x80 - 0x80)) * 64 +
            (v % 0x40 + 0x80 - 0x80) = v := by omega
        have hparts := partsFrom_four (a := UInt8.ofNat (v / 262144 % 0x08 + 0xF0))
          (b := UInt8.ofNat (v / 4096 % 0x40 + 0x80)) (c := UInt8.ofNat (v / 64 % 0x40 + 0x80))
          (d := UInt8.ofNat (v % 0x40 + 0x80)) r (by omega) (by omega) (by omega) (by omega)
          (by omega) (by omega) (by omega) (by omega) (by omega) (by omega)
        rw [h0, h1, h2, h3, hbits] at hparts
        exact hparts

theorem val_ofNat {n : Nat} (h : n < 0xD800 ∨ 0xDFFF < n ∧ n < 0x110000) :
    (Char.ofNat n).val.toNat = n := by
  rw [Char.ofNat, dif_pos h]
  rfl

/-- The first byte of a character is the character itself, or no byte of ASCII. -/
theorem head_utf8EncodeChar (c : Char) :
    ∃ b l, String.utf8EncodeChar c = b :: l ∧ (Char.ofNat b.toNat = c ∨ 0x80 ≤ b.toNat) := by
  have hbyte {n : Nat} (h : n < 256) : (UInt8.ofNat n).toNat = n := by
    rw [UInt8.toNat_ofNat']
    exact Nat.mod_eq_of_lt h
  unfold String.utf8EncodeChar
  simp only
  split
  · next h =>
    refine ⟨_, _, rfl, .inl ?_⟩
    rw [hbyte (by omega)]
    exact Char.ofNat_toNat c
  · next h =>
    have hhigh {n : Nat} (hlow : 0x80 ≤ n) (h : n < 256) : 0x80 ≤ (UInt8.ofNat n).toNat := by
      rwa [hbyte h]
    split
    · exact ⟨_, _, rfl, .inr (hhigh (by omega) (by omega))⟩
    · split
      · exact ⟨_, _, rfl, .inr (hhigh (by omega) (by omega))⟩
      · exact ⟨_, _, rfl, .inr (hhigh (by omega) (by omega))⟩

/-- **A text is read back** from its bytes. -/
theorem decode_encode (t : Text) : decode (encode t) = some t := by
  have hparts : parts (encode t) = t.map some := by
    induction t with
    | nil => rfl
    | cons c t ih =>
        have hcons : encode (c :: t) = String.utf8EncodeChar c ++ encode t := rfl
        rw [parts, hcons, partsFrom_utf8EncodeChar, List.map_cons]
        exact congrArg _ ih
  rw [decode, hparts, List.mapM_map]
  have hall := mapM_eq_some_map (l := t) (g := id) (f := fun c => id (some c)) fun _ _ => rfl
  rwa [List.map_id] at hall

end Unjar.Utf8
