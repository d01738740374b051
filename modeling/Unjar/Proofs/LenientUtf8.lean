import Unjar.Proofs.Utf8

/-!
Lenient reading of bytes that were cut.

A byte below `0x80` is a character by itself wherever it stands: what is in front of it and what is
behind it are read apart.  In the bytes of a character only the first is no follower, a byte from
`0x80` to `0xBF`.  So when the bytes of a text are cut at any place, a piece may hold the end of one
character and the start of another, which are read as replacement characters, but every other
character that is found in it is one of the text.

Main definitions:

* `Unjar.Utf8.IsFollower` — the bytes behind the first byte of a character;
* `Unjar.Utf8.Begun`, `Unjar.Utf8.Reading` — the bytes of which a pending character has been read.

Main results:

* `Unjar.Utf8.decodeLossy_append_ascii` — reading falls apart at characters of one byte;
* `Unjar.Utf8.mem_partsFrom_none`, `Unjar.Utf8.mem_partsFrom_some` — where a character that is read
  comes from;
* `Unjar.Utf8.utf8EncodeChar_infix_of_mem` — a character that is read stands in the bytes;
* `Unjar.Utf8.mem_of_isInfix_encode` — one whose bytes stand in those of a text is in the text;
* `Unjar.Utf8.mem_of_mem_decodeLossy` — **a piece of a text holds no characters but those of the
  text** and replacement characters.
-/

set_option autoImplicit false

namespace Unjar.Utf8

variable {a b : UInt8} {c : Char} {p : Pending} {s r : Bytes} {t : Text}

/-! ### Reading apart -/

theorem low_of_lead (h : lead b = .opens p) : 0x80 ≤ p.low.toNat := by
  unfold lead at h
  repeat' split at h
  all_goals cases h
  all_goals exact Nat.le_of_ble_eq_true rfl

/-- A byte that does not continue a pending character is read as a first byte. -/
theorem partsFrom_refused (r : Bytes) (h : ¬(p.low ≤ b ∧ b ≤ p.high)) :
    partsFrom (some p) (b :: r) = none :: partsFrom none (b :: r) := by
  simp only [partsFrom, if_neg h]

/-- A byte below `0x80` ends whatever is pending. -/
theorem partsFrom_append_one (s r : Bytes) (hb : b.toNat < 0x80) (pending : Option Pending)
    (hlow : ∀ p, pending = some p → 0x80 ≤ p.low.toNat) :
    partsFrom pending (s ++ b :: r) =
      partsFrom pending s ++ some (Char.ofNat b.toNat) :: partsFrom none r := by
  induction s generalizing pending with
  | nil =>
      cases pending with
      | none => exact partsFrom_one r hb
      | some p =>
          have hrefused : ¬(p.low ≤ b ∧ b ≤ p.high) := by
            have := hlow p rfl
            simp only [UInt8.le_iff_toNat_le]
            omega
          rw [List.nil_append, partsFrom_refused r hrefused, partsFrom_one r hb]
          rfl
  | cons d s ih =>
      have hnone := ih none nofun
      have hsome (q : Pending) (hq : 0x80 ≤ q.low.toNat) :=
        ih (some q) fun _ h => by cases h; exact hq
      have hfirst : partsFrom none (d :: s ++ b :: r) =
          partsFrom none (d :: s) ++ some (Char.ofNat b.toNat) :: partsFrom none r := by
        rw [List.cons_append, partsFrom, partsFrom]
        cases hlead : lead d with
        | single c => exact congrArg _ hnone
        | opens q => exact hsome q (low_of_lead hlead)
        | stray => exact congrArg _ hnone
      cases pending with
      | none => exact hfirst
      | some p =>
          by_cases hin : p.low ≤ d ∧ d ≤ p.high
          · rw [List.cons_append, partsFrom, if_pos hin, partsFrom, if_pos hin]
            dsimp only
            split
            · exact congrArg _ hnone
            · exact hsome _ (Nat.le_refl _)
          · rw [List.cons_append, partsFrom_refused _ hin, partsFrom_refused _ hin]
            exact congrArg _ hfirst

theorem encode_cons (c : Char) (t : Text) : encode (c :: t) = String.utf8EncodeChar c ++ encode t :=
  rfl

theorem encode_append (t u : Text) : encode (t ++ u) = encode t ++ encode u := List.flatMap_append

theorem encode_flatten (texts : List Text) :
    encode texts.flatten = (texts.map encode).flatten := by
  induction texts with
  | nil => rfl
  | cons t texts ih => rw [List.flatten_cons, encode_append, ih, List.map_cons, List.flatten_cons]

/-- A text in front of other bytes is read as it is. -/
theorem decodeLossy_encode_append (t : Text) (r : Bytes) :
    decodeLossy (encode t ++ r) = t ++ decodeLossy r := by
  induction t with
  | nil => rfl
  | cons c t ih =>
      rw [encode_cons, List.append_assoc, decodeLossy, parts, partsFrom_utf8EncodeChar,
        List.map_cons]
      exact congrArg _ ih

theorem decodeLossy_encode (t : Text) : decodeLossy (encode t) = t := by
  have h := decodeLossy_encode_append t []
  rwa [List.append_nil, show decodeLossy [] = [] from rfl, List.append_nil] at h

/-- **Reading falls apart** at characters of one byte. -/
theorem decodeLossy_append_ascii (s r : Bytes) (hne : t ≠ []) (ht : ∀ c ∈ t, c.toNat < 0x80) :
    decodeLossy (s ++ (encode t ++ r)) = decodeLossy s ++ (t ++ decodeLossy r) := by
  obtain ⟨c, t, rfl⟩ := List.exists_cons_of_ne_nil hne
  have hc : c.toNat < 0x80 := ht c List.mem_cons_self
  have hbyte : (UInt8.ofNat c.toNat).toNat = c.toNat := by
    rw [UInt8.toNat_ofNat']
    exact Nat.mod_eq_of_lt (by omega)
  have hencode : String.utf8EncodeChar c = [UInt8.ofNat c.toNat] := by
    have hle : c.val.toNat ≤ 0x7F := Nat.le_of_lt_succ hc
    rw [String.utf8EncodeChar, if_pos hle]
    rfl
  rw [encode_cons, hencode, decodeLossy, parts]
  simp only [List.cons_append]
  rw [partsFrom_append_one s _ (by rw [hbyte]; exact hc) none (fun _ h => by cases h), hbyte,
    Char.ofNat_toNat, List.map_append, List.map_cons]
  exact congrArg _ (congrArg _ (decodeLossy_encode_append t r))

/-! ### The bytes of a character -/

/-- A byte that continues a character. -/
def IsFollower (b : UInt8) : Prop := 0x80 ≤ b.toNat ∧ b.toNat < 0xC0

/-- The first byte of a character is no follower, the others are. -/
theorem utf8EncodeChar_eq_cons (c : Char) :
    ∃ b l, String.utf8EncodeChar c = b :: l ∧ ¬IsFollower b ∧ ∀ d ∈ l, IsFollower d := by
  have hbyte {n : Nat} (h : n < 256) : (UInt8.ofNat n).toNat = n := by
    rw [UInt8.toNat_ofNat']
    exact Nat.mod_eq_of_lt h
  have hfirst {n : Nat} (h : n < 0x80 ∨ 0xC0 ≤ n ∧ n < 256) : ¬IsFollower (UInt8.ofNat n) := by
    rw [IsFollower, hbyte (by omega)]
    omega
  have hlater {n : Nat} : IsFollower (UInt8.ofNat (n % 0x40 + 0x80)) := by
    rw [IsFollower, hbyte (by omega)]
    omega
  have hvalid : c.val.toNat < 0xD800 ∨ 0xDFFF < c.val.toNat ∧ c.val.toNat < 0x110000 := c.valid
  unfold String.utf8EncodeChar
  simp only
  split
  · next h => exact ⟨_, _, rfl, hfirst (by omega), by simp⟩
  · split
    · exact ⟨_, _, rfl, hfirst (by omega), by simp only [List.forall_mem_singleton, hlater]⟩
    · split
      · refine ⟨_, _, rfl, hfirst (by omega), ?_⟩
        simp only [List.mem_cons, List.not_mem_nil, or_false]
        rintro d (rfl | rfl) <;> exact hlater
      · refine ⟨_, _, rfl, hfirst (by omega), ?_⟩
        simp only [List.mem_cons, List.not_mem_nil, or_false]
        rintro d (rfl | rfl | rfl) <;> exact hlater

/-- **A character whose bytes stand in those of a text is in the text**: they cannot stand across
the bounds between its characters. -/
theorem mem_of_isInfix_encode (h : String.utf8EncodeChar c <:+: encode t) : c ∈ t := by
  obtain ⟨x, y, hxy⟩ := h
  induction t generalizing x with
  | nil =>
      obtain ⟨b, l, hc, -⟩ := utf8EncodeChar_eq_cons c
      rw [hc] at hxy
      simp [encode] at hxy
  | cons d t ih =>
      rw [encode_cons] at hxy
      obtain ⟨e, l, hd, -, hl⟩ := utf8EncodeChar_eq_cons d
      cases x with
      | nil =>
          -- both are read from the same bytes
          have hparts := congrArg (partsFrom none) hxy
          rw [List.nil_append, partsFrom_utf8EncodeChar, partsFrom_utf8EncodeChar, List.cons.injEq,
            Option.some.injEq] at hparts
          rw [hparts.1]
          exact List.mem_cons_self
      | cons f x =>
          obtain ⟨g, m, hc, hg, -⟩ := utf8EncodeChar_eq_cons c
          rw [hd, List.cons_append, List.cons_append, List.cons_append, List.cons.injEq] at hxy
          have htail : x ++ (String.utf8EncodeChar c ++ y) = l ++ encode t := by
            rw [← List.append_assoc]
            exact hxy.2
          rcases List.append_eq_append_iff.mp htail with ⟨z, hz, hrest⟩ | ⟨z, hz, hrest⟩
          · -- the first byte of the one would be among the later bytes of the other
            cases z with
            | nil =>
                have hc' : [] ++ String.utf8EncodeChar c ++ y = encode t := hrest
                exact List.mem_cons_of_mem _ (ih [] hc')
            | cons z₀ z =>
                rw [hc, List.cons_append, List.cons_append, List.cons.injEq] at hrest
                refine absurd (hl g ?_) hg
                rw [hz, hrest.1]
                simp
          · refine List.mem_cons_of_mem _ (ih z ?_)
            rw [List.append_assoc]
            exact hrest.symm

/-! ### Characters that are read -/

section

variable {d e : UInt8}

theorem ofNat_eq {n : Nat} (h : n = b.toNat) : UInt8.ofNat n = b := by
  rw [h]
  exact UInt8.ofNat_toNat

theorem utf8EncodeChar_one (hb : b.toNat < 0x80) :
    String.utf8EncodeChar (Char.ofNat b.toNat) = [b] := by
  rw [String.utf8EncodeChar, val_ofNat (by omega), if_pos (by omega), ofNat_eq rfl]

theorem utf8EncodeChar_two (halow : 0xC2 ≤ a.toNat) (hahigh : a.toNat < 0xE0) (hb : IsFollower b) :
    String.utf8EncodeChar (Char.ofNat ((a.toNat - 0xC0) * 64 + (b.toNat - 0x80))) = [a, b] := by
  obtain ⟨hblow, hbhigh⟩ := hb
  rw [String.utf8EncodeChar, val_ofNat (by omega), if_neg (by omega), if_pos (by omega)]
  rw [ofNat_eq (b := a) (by omega), ofNat_eq (b := b) (by omega)]

theorem utf8EncodeChar_three (halow : 0xE0 ≤ a.toNat) (hahigh : a.toNat < 0xF0) (hb : IsFollower b)
    (hlong : a.toNat = 0xE0 → 0xA0 ≤ b.toNat) (hsurrogate : a.toNat = 0xED → b.toNat ≤ 0x9F)
    (hd : IsFollower d) :
    String.utf8EncodeChar (Char.ofNat
      (((a.toNat - 0xE0) * 64 + (b.toNat - 0x80)) * 64 + (d.toNat - 0x80))) = [a, b, d] := by
  obtain ⟨hblow, hbhigh⟩ := hb
  obtain ⟨hdlow, hdhigh⟩ := hd
  rw [String.utf8EncodeChar, val_ofNat (by omega), if_neg (by omega), if_neg (by omega),
    if_pos (by omega)]
  rw [ofNat_eq (b := a) (by omega), ofNat_eq (b := b) (by omega), ofNat_eq (b := d) (by omega)]

theorem utf8EncodeChar_four (halow : 0xF0 ≤ a.toNat) (hahigh : a.toNat ≤ 0xF4) (hb : IsFollower b)
    (hlong : a.toNat = 0xF0 → 0x90 ≤ b.toNat) (hbeyond : a.toNat = 0xF4 → b.toNat ≤ 0x8F)
    (hd : IsFollower d) (he : IsFollower e) :
    String.utf8EncodeChar (Char.ofNat ((((a.toNat - 0xF0) * 64 + (b.toNat - 0x80)) * 64 +
      (d.toNat - 0x80)) * 64 + (e.toNat - 0x80))) = [a, b, d, e] := by
  obtain ⟨hblow, hbhigh⟩ := hb
  obtain ⟨hdlow, hdhigh⟩ := hd
  obtain ⟨helow, hehigh⟩ := he
  rw [String.utf8EncodeChar, val_ofNat (by omega), if_neg (by omega), if_neg (by omega),
    if_neg (by omega)]
  rw [ofNat_eq (b := a) (by omega), ofNat_eq (b := b) (by omega), ofNat_eq (b := d) (by omega),
    ofNat_eq (b := e) (by omega)]

end

/-- The first bytes that are characters by themselves. -/
theorem single_cases (h : lead b = .single c) : b.toNat < 0x80 ∧ c = Char.ofNat b.toNat := by
  unfold lead at h
  split at h
  · next hb =>
    cases h
    exact ⟨hb, rfl⟩
  · repeat' split at h
    all_goals cases h

/-- The bytes that begin no character. -/
theorem lead_stray (h : 0x80 ≤ a.toNat ∧ a.toNat < 0xC2 ∨ 0xF4 < a.toNat) : lead a = .stray := by
  have hnot {n : UInt8} (hn : n.toNat ≤ a.toNat) : ¬a < n :=
    UInt8.not_lt.mpr (UInt8.le_iff_toNat_le.mpr hn)
  have hne {n : UInt8} (hn : n.toNat < a.toNat) : ¬(a == n) = true := by
    rw [beq_iff_eq]
    rintro rfl
    exact Nat.lt_irrefl _ hn
  rcases h with ⟨hlow, hhigh⟩ | hhigh
  · rw [lead, if_neg (hnot (n := 0x80) hlow), if_pos (UInt8.lt_iff_toNat_lt.mpr hhigh)]
  · -- what is beyond the last first byte is beyond all of them
    have hbeyond {n : UInt8} (hn : n.toNat ≤ 0xF4) : n.toNat < a.toNat :=
      Nat.lt_of_le_of_lt hn hhigh
    have hall {n : UInt8} (hn : n.toNat ≤ 0xF4) : ¬a < n := hnot (Nat.le_of_lt (hbeyond hn))
    rw [lead, if_neg (hall (by decide)), if_neg (hall (by decide)), if_neg (hall (by decide)),
      if_neg (hne (hbeyond (by decide))), if_neg (hne (hbeyond (by decide))),
      if_neg (hall (by decide)), if_neg (hne (hbeyond (by decide))), if_neg (hall (by decide)),
      if_neg (hne (hbeyond (by decide)))]

/-- The first bytes that open a character, by the number of bytes that are owed. -/
theorem opens_cases (h : lead a = .opens p) :
    (0xC2 ≤ a.toNat ∧ a.toNat < 0xE0 ∧ p = ⟨1, 0x80, 0xBF, a.toNat - 0xC0⟩) ∨
    (0xE0 ≤ a.toNat ∧ a.toNat < 0xF0 ∧ p = ⟨2, if a.toNat = 0xE0 then 0xA0 else 0x80,
      if a.toNat = 0xED then 0x9F else 0xBF, a.toNat - 0xE0⟩) ∨
    (0xF0 ≤ a.toNat ∧ a.toNat ≤ 0xF4 ∧ p = ⟨3, if a.toNat = 0xF0 then 0x90 else 0x80,
      if a.toNat = 0xF4 then 0x8F else 0xBF, a.toNat - 0xF0⟩) := by
  rcases Nat.lt_or_ge a.toNat 0x80 with hone | hone
  · rw [lead_one hone] at h
    cases h
  rcases Nat.lt_or_ge a.toNat 0xC2 with hstray | htwo
  · rw [lead_stray (.inl ⟨hone, hstray⟩)] at h
    cases h
  rcases Nat.lt_or_ge a.toNat 0xE0 with hlt | hthree
  · rw [lead_two htwo hlt, Lead.opens.injEq] at h
    exact .inl ⟨htwo, hlt, h.symm⟩
  rcases Nat.lt_or_ge a.toNat 0xF0 with hlt | hfour
  · rw [lead_three hthree hlt, Lead.opens.injEq] at h
    exact .inr (.inl ⟨hthree, hlt, h.symm⟩)
  rcases Nat.lt_or_ge 0xF4 a.toNat with hbeyond | hle
  · rw [lead_stray (.inr hbeyond)] at h
    cases h
  · rw [lead_four hfour hle, Lead.opens.injEq] at h
    exact .inr (.inr ⟨hfour, hle, h.symm⟩)

/-- The bytes of which a pending character has been read. -/
inductive Begun : Bytes → Pending → Prop where
  | opens {b : UInt8} {p : Pending} (h : lead b = .opens p) : Begun [b] p
  | more {s : Bytes} {p : Pending} {b : UInt8} (h : Begun s p) (hlow : p.low.toNat ≤ b.toNat)
      (hhigh : b.toNat ≤ p.high.toNat) (howed : 1 < p.owed) :
      Begun (s ++ [b]) ⟨p.owed - 1, 0x80, 0xBF, p.bits * 64 + (b.toNat - 0x80)⟩

theorem Begun.owed_le (h : Begun s p) : p.owed ≤ 3 := by
  induction h with
  | opens h => rcases opens_cases h with ⟨-, -, rfl⟩ | ⟨-, -, rfl⟩ | ⟨-, -, rfl⟩ <;> simp
  | more _ _ _ _ ih => exact Nat.le_trans (Nat.sub_le _ _) ih

/-- The second of three or four bytes has bounds of its own behind certain first bytes. -/
theorem isFollower_second {k l : Nat} {low high : UInt8} (hl : 0x80 ≤ low.toNat)
    (hh : high.toNat ≤ 0xBF) (hlow : (if a.toNat = k then low else 0x80).toNat ≤ b.toNat)
    (hhigh : b.toNat ≤ (if a.toNat = l then high else 0xBF).toNat) :
    IsFollower b ∧ (a.toNat = k → low.toNat ≤ b.toNat) ∧ (a.toNat = l → b.toNat ≤ high.toNat) := by
  refine ⟨⟨?_, ?_⟩, fun h => by rwa [if_pos h] at hlow, fun h => by rwa [if_pos h] at hhigh⟩
  · split at hlow
    · exact Nat.le_trans hl hlow
    · exact hlow
  · split at hhigh
    · exact Nat.lt_succ_of_le (Nat.le_trans hhigh hh)
    · exact Nat.lt_succ_of_le hhigh

/-- The last byte of a pending character makes its bytes complete. -/
theorem Begun.complete (h : Begun s p) (hlow : p.low.toNat ≤ b.toNat)
    (hhigh : b.toNat ≤ p.high.toNat) (howed : p.owed ≤ 1) :
    String.utf8EncodeChar (Char.ofNat (p.bits * 64 + (b.toNat - 0x80))) = s ++ [b] := by
  have hlater {f : UInt8} (h : (0x80 : UInt8).toNat ≤ f.toNat)
      (h' : f.toNat ≤ (0xBF : UInt8).toNat) : IsFollower f := ⟨h, Nat.lt_succ_of_le h'⟩
  cases h with
  | opens hlead =>
      rcases opens_cases hlead with ⟨halow, hahigh, rfl⟩ | ⟨-, -, rfl⟩ | ⟨-, -, rfl⟩
      · exact utf8EncodeChar_two halow hahigh (hlater hlow hhigh)
      · simp at howed
      · simp at howed
  | @more s p d h hdlow hdhigh howed' =>
      cases h with
      | @opens a p hlead =>
          rcases opens_cases hlead with ⟨-, -, rfl⟩ | ⟨halow, hahigh, rfl⟩ | ⟨-, -, rfl⟩
          · simp at howed'
          · obtain ⟨hd, hlong, hsurrogate⟩ :=
              isFollower_second (by decide) (by decide) hdlow hdhigh
            exact utf8EncodeChar_three halow hahigh hd hlong hsurrogate (hlater hlow hhigh)
          · simp at howed
      | @more s p e h helow hehigh howed₂ =>
          cases h with
          | @opens a p hlead =>
              rcases opens_cases hlead with ⟨-, -, rfl⟩ | ⟨-, -, rfl⟩ | ⟨halow, hahigh, rfl⟩
              · simp at howed₂
              · simp at howed'
              · obtain ⟨he, hlong, hbeyond⟩ :=
                  isFollower_second (by decide) (by decide) helow hehigh
                exact utf8EncodeChar_four halow hahigh he hlong hbeyond (hlater hdlow hdhigh)
                  (hlater hlow hhigh)
          | @more s p f h hflow hfhigh hmany =>
              have : p.owed ≤ 3 := h.owed_le
              simp at howed howed' howed₂ hmany
              omega

/-- A character that is read from a first byte on is that byte, or is opened by it, or stands behind
it. -/
theorem mem_partsFrom_none (h : some c ∈ partsFrom none (b :: s)) :
    (b.toNat < 0x80 ∧ c = Char.ofNat b.toNat) ∨
      (∃ p, lead b = .opens p ∧ some c ∈ partsFrom (some p) s) ∨ some c ∈ partsFrom none s := by
  rw [partsFrom] at h
  cases hlead : lead b with
  | single d =>
      rw [hlead] at h
      obtain ⟨hb, rfl⟩ := single_cases hlead
      exact (List.mem_cons.mp h).imp (fun hd => ⟨hb, Option.some.inj hd⟩) .inr
  | opens p =>
      rw [hlead] at h
      exact .inr (.inl ⟨p, rfl, h⟩)
  | stray =>
      rw [hlead] at h
      exact .inr (.inr ((List.mem_cons.mp h).resolve_left fun hd => by cases hd))

/-- A character that is read while another is pending is that one, which ends with the byte or is
continued by it, or it is read as if nothing were pending. -/
theorem mem_partsFrom_some (h : some c ∈ partsFrom (some p) (b :: s)) :
    (p.low.toNat ≤ b.toNat ∧ b.toNat ≤ p.high.toNat ∧
      (p.owed ≤ 1 ∧ (c = Char.ofNat (p.bits * 64 + (b.toNat - 0x80)) ∨ some c ∈ partsFrom none s) ∨
        1 < p.owed ∧ some c ∈ partsFrom
          (some ⟨p.owed - 1, 0x80, 0xBF, p.bits * 64 + (b.toNat - 0x80)⟩) s)) ∨
      some c ∈ partsFrom none (b :: s) := by
  by_cases hin : p.low ≤ b ∧ b ≤ p.high
  · obtain ⟨hlow, hhigh⟩ := hin
    rw [partsFrom, if_pos ⟨hlow, hhigh⟩] at h
    refine .inl ⟨UInt8.le_iff_toNat_le.mp hlow, UInt8.le_iff_toNat_le.mp hhigh, ?_⟩
    by_cases howed : p.owed ≤ 1
    · rw [if_pos howed] at h
      exact .inl ⟨howed, (List.mem_cons.mp h).imp_left Option.some.inj⟩
    · rw [if_neg howed] at h
      exact .inr ⟨Nat.lt_of_not_le howed, h⟩
  · rw [partsFrom_refused _ hin] at h
    exact .inr ((List.mem_cons.mp h).resolve_left fun hd => by cases hd)

/-- The bytes behind the start of a part. -/
def Reading (s : Bytes) : Option Pending → Prop
  | none => s = []
  | some p => Begun s p

/-- **A character that is read stands in the bytes.** -/
theorem utf8EncodeChar_infix_of_mem (s w : Bytes) (pending : Option Pending)
    (hw : Reading w pending) (hc : some c ∈ partsFrom pending s) :
    String.utf8EncodeChar c <:+: w ++ s := by
  induction s generalizing w pending with
  | nil => cases pending <;> simp [partsFrom] at hc
  | cons b s ih =>
      have hrest (hc : some c ∈ partsFrom none s) : String.utf8EncodeChar c <:+: s :=
        ih [] none rfl hc
      have hfirst (hc : some c ∈ partsFrom none (b :: s)) :
          String.utf8EncodeChar c <:+: b :: s := by
        rcases mem_partsFrom_none hc with ⟨hb, rfl⟩ | ⟨p, hlead, hc⟩ | hc
        · rw [utf8EncodeChar_one hb]
          exact (List.prefix_append [b] s).isInfix
        · exact ih [b] (some p) (.opens hlead) hc
        · exact (hrest hc).trans (List.suffix_cons b s).isInfix
      cases pending with
      | none =>
          cases hw
          exact hfirst hc
      | some p =>
          rcases mem_partsFrom_some hc with
            ⟨hlow, hhigh, ⟨howed, hd | hc⟩ | ⟨howed, hc⟩⟩ | hc
          · rw [hd, Begun.complete hw hlow hhigh howed]
            exact ⟨[], s, by simp⟩
          · exact (hrest hc).trans ⟨w ++ [b], [], by simp⟩
          · have h := ih (w ++ [b]) (some _) (Begun.more hw hlow hhigh howed) hc
            rwa [List.append_assoc] at h
          · exact (hfirst hc).trans (List.suffix_append w _).isInfix

/-- **A piece of a text holds no characters but those of the text** and replacement characters,
wherever it was cut. -/
theorem mem_of_mem_decodeLossy (hs : s <:+: encode t) (hc : c ∈ decodeLossy s) :
    c ∈ t ∨ c = '\uFFFD' := by
  obtain ⟨part, hpart, rfl⟩ := List.mem_map.mp hc
  cases part with
  | none => exact .inr rfl
  | some d =>
      exact .inl (mem_of_isInfix_encode
        ((utf8EncodeChar_infix_of_mem s [] none rfl hpart).trans hs))

end Unjar.Utf8
