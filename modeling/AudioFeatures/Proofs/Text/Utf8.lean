import Mathlib
import AudioFeatures.Text.Utf8

/-! # Reading UTF-8 back

Every character is read from the bytes that it is encoded as, whatever follows them. So a text is
read back from its encoding, and nothing else is read as the text.
-/

namespace AudioFeatures.Text.Utf8

open String (utf8EncodeChar)

variable {b b₁ b₂ b₃ : UInt8} {rest bytes : List UInt8} {pos n : Nat} {c : Char} {cs : List Char}

/-- What is read where a character stands in front of other bytes. -/
def readBefore (c : Char) (pos : Nat) (rest : List UInt8) : List Char × Option Utf8Fault :=
  (c :: (scan pos rest).1, (scan pos rest).2)

/-! ## Characters by their number of bytes -/

theorem scan_one (h : b.toNat < 0x80) :
    scan pos (b :: rest) = readBefore (Char.ofNat b.toNat) (pos + 1) rest := by
  have hlead : b < 0x80 := UInt8.lt_iff_toNat_lt.2 h
  rw [scan.eq_def]
  simp only [if_pos hlead]
  rfl

theorem not_lt_of_le (hn : 0x80 ≤ n) (h : n ≤ b.toNat) : ¬b < 0x80 := by
  rw [UInt8.lt_iff_toNat_lt]
  exact Nat.not_lt.2 (hn.trans h)

theorem scan_two (h : 0xc2 ≤ b.toNat ∧ b.toNat ≤ 0xdf) (h₁ : isTail b₁ = true) :
    scan pos (b :: b₁ :: rest) = readBefore (join (b.toNat % 32) [b₁]) (pos + 2) rest := by
  have htwo : (0xc2 ≤ b && b ≤ 0xdf) = true := by simpa [UInt8.le_iff_toNat_le] using h
  rw [scan.eq_def]
  simp only [if_neg (not_lt_of_le (by decide) h.1), if_pos htwo, if_pos h₁]
  rfl

theorem scan_three (h : 0xe0 ≤ b.toNat ∧ b.toNat ≤ 0xef) (h₁ : secondOfThree b b₁ = true)
    (h₂ : isTail b₂ = true) : scan pos (b :: b₁ :: b₂ :: rest) =
      readBefore (join (b.toNat % 16) [b₁, b₂]) (pos + 3) rest := by
  have htwo : ¬(0xc2 ≤ b && b ≤ 0xdf) = true := by
    simp [UInt8.le_iff_toNat_le]
    omega
  have hthree : (0xe0 ≤ b && b ≤ 0xef) = true := by simpa [UInt8.le_iff_toNat_le] using h
  have hsecond : ¬(!secondOfThree b b₁) = true := by simp [h₁]
  rw [scan.eq_def]
  simp only [if_neg (not_lt_of_le (by decide) h.1), if_neg htwo, if_pos hthree, if_neg hsecond,
    if_pos h₂]
  rfl

theorem scan_four (h : 0xf0 ≤ b.toNat ∧ b.toNat ≤ 0xf4) (h₁ : secondOfFour b b₁ = true)
    (h₂ : isTail b₂ = true) (h₃ : isTail b₃ = true) : scan pos (b :: b₁ :: b₂ :: b₃ :: rest) =
      readBefore (join (b.toNat % 8) [b₁, b₂, b₃]) (pos + 4) rest := by
  have htwo : ¬(0xc2 ≤ b && b ≤ 0xdf) = true := by
    simp [UInt8.le_iff_toNat_le]
    omega
  have hthree : ¬(0xe0 ≤ b && b ≤ 0xef) = true := by
    simp [UInt8.le_iff_toNat_le]
    omega
  have hfour : (0xf0 ≤ b && b ≤ 0xf4) = true := by simpa [UInt8.le_iff_toNat_le] using h
  have hsecond : ¬(!secondOfFour b b₁) = true := by simp [h₁]
  have hthird : ¬(!isTail b₂) = true := by simp [h₂]
  rw [scan.eq_def]
  simp only [if_neg (not_lt_of_le (by decide) h.1), if_neg htwo, if_neg hthree, if_pos hfour,
    if_neg hsecond, if_neg hthird, if_pos h₃]
  rfl

/-! ## The bytes of a character -/

theorem toNat_val_lt (c : Char) : c.val.toNat < 0x110000 := by
  rcases c.valid with h | h
  · exact Nat.lt_trans h (by decide)
  · exact h.2

theorem toNat_byte (h : n < 256) : (UInt8.ofNat n).toNat = n := UInt8.toNat_ofNat_of_lt' h

theorem isTail_iff : isTail b = true ↔ 0x80 ≤ b.toNat ∧ b.toNat ≤ 0xbf := by
  simp [isTail, UInt8.le_iff_toNat_le]

/-- A lead byte restricts the second byte where it would encode a shorter character or none. -/
theorem secondOfThree_iff : secondOfThree b b₁ = true ↔ (0x80 ≤ b₁.toNat ∧ b₁.toNat ≤ 0xbf) ∧
    (b.toNat = 0xe0 → 0xa0 ≤ b₁.toNat) ∧ (b.toNat = 0xed → b₁.toNat ≤ 0x9f) := by
  simp only [secondOfThree, beq_iff_eq, ← UInt8.toNat_inj, Bool.and_eq_true, decide_eq_true_eq,
    UInt8.le_iff_toNat_le, apply_ite UInt8.toNat, UInt8.reduceToNat]
  split <;> split <;> omega

theorem secondOfFour_iff : secondOfFour b b₁ = true ↔ (0x80 ≤ b₁.toNat ∧ b₁.toNat ≤ 0xbf) ∧
    (b.toNat = 0xf0 → 0x90 ≤ b₁.toNat) ∧ (b.toNat = 0xf4 → b₁.toNat ≤ 0x8f) := by
  simp only [secondOfFour, beq_iff_eq, ← UInt8.toNat_inj, Bool.and_eq_true, decide_eq_true_eq,
    UInt8.le_iff_toNat_le, apply_ite UInt8.toNat, UInt8.reduceToNat]
  split <;> split <;> omega

/-- Every character is read from its bytes. -/
theorem scan_utf8EncodeChar (c : Char) (pos : Nat) (rest : List UInt8) :
    ∃ pos', scan pos (utf8EncodeChar c ++ rest) = readBefore c pos' rest := by
  have hvalid : c.val.toNat < 0xd800 ∨ 0xdfff < c.val.toNat ∧ c.val.toNat < 0x110000 := c.valid
  have hc : Char.ofNat c.val.toNat = c := Char.ofNat_toNat c
  unfold utf8EncodeChar
  generalize c.val.toNat = v at hvalid hc
  have htail : (UInt8.ofNat (v % 64 + 0x80)).toNat = v % 64 + 0x80 := toNat_byte (by omega)
  have hmiddle : (UInt8.ofNat (v / 64 % 64 + 0x80)).toNat = v / 64 % 64 + 0x80 :=
    toNat_byte (by omega)
  dsimp only
  split
  case isTrue h =>
    have hlead : (UInt8.ofNat v).toNat = v := toNat_byte (by omega)
    refine ⟨pos + 1, (scan_one (by omega)).trans ?_⟩
    rw [hlead, hc]
    rfl
  case isFalse h =>
  split
  case isTrue h' =>
    have hlead : (UInt8.ofNat (v / 64 % 32 + 0xc0)).toNat = v / 64 % 32 + 0xc0 :=
      toNat_byte (by omega)
    refine ⟨pos + 2, (scan_two (by omega) (isTail_iff.2 (by omega))).trans ?_⟩
    rw [join, ← hc]
    simp only [List.foldl, hlead, htail]
    congr 2
    omega
  case isFalse h' =>
  split
  case isTrue h'' =>
    have hlead : (UInt8.ofNat (v / 4096 % 16 + 0xe0)).toNat = v / 4096 % 16 + 0xe0 :=
      toNat_byte (by omega)
    refine ⟨pos + 3, (scan_three (by omega) (secondOfThree_iff.2 (by omega))
      (isTail_iff.2 (by omega))).trans ?_⟩
    rw [join, ← hc]
    simp only [List.foldl, hlead, hmiddle, htail]
    congr 2
    omega
  case isFalse h'' =>
    have hlead : (UInt8.ofNat (v / 262144 % 8 + 0xf0)).toNat = v / 262144 % 8 + 0xf0 :=
      toNat_byte (by omega)
    have hsecond : (UInt8.ofNat (v / 4096 % 64 + 0x80)).toNat = v / 4096 % 64 + 0x80 :=
      toNat_byte (by omega)
    refine ⟨pos + 4, (scan_four (by omega) (secondOfFour_iff.2 (by omega))
      (isTail_iff.2 (by omega)) (isTail_iff.2 (by omega))).trans ?_⟩
    rw [join, ← hc]
    simp only [List.foldl, hlead, hsecond, hmiddle, htail]
    congr 2
    omega

theorem decode_encode (s : String) : decode (encode s) = .ok s := by
  have hscan (cs : List Char) (pos : Nat) : scan pos (cs.flatMap utf8EncodeChar) = (cs, none) := by
    induction cs generalizing pos with
    | nil => rfl
    | cons c cs ih =>
      obtain ⟨pos', h⟩ := scan_utf8EncodeChar c pos (cs.flatMap utf8EncodeChar)
      rw [List.flatMap_cons, h, readBefore, ih]
  rw [decode, encode, hscan]
  simp

/-! ## The bytes that were read -/

theorem toNat_ofNat (h : n < 0xd800 ∨ 0xdfff < n ∧ n < 0x110000) :
    (Char.ofNat n).val.toNat = n := (Char.toNat_ofNat n).trans (if_pos h)

theorem byte_eq (b : UInt8) (h : n = b.toNat) : UInt8.ofNat n = b := by
  rw [h, UInt8.ofNat_toNat]

theorem encode_one (h : b.toNat < 0x80) : utf8EncodeChar (Char.ofNat b.toNat) = [b] := by
  unfold utf8EncodeChar
  rw [toNat_ofNat (by omega)]
  dsimp only
  rw [if_pos (by omega), byte_eq b rfl]

theorem encode_two (h : 0xc2 ≤ b.toNat ∧ b.toNat ≤ 0xdf) (h₁ : isTail b₁ = true) :
    utf8EncodeChar (join (b.toNat % 32) [b₁]) = [b, b₁] := by
  have htail := isTail_iff.1 h₁
  simp only [join, List.foldl]
  unfold utf8EncodeChar
  rw [toNat_ofNat (by omega)]
  dsimp only
  rw [if_neg (by omega), if_pos (by omega), byte_eq b (by omega), byte_eq b₁ (by omega)]

theorem encode_three (h : 0xe0 ≤ b.toNat ∧ b.toNat ≤ 0xef) (h₁ : secondOfThree b b₁ = true)
    (h₂ : isTail b₂ = true) : utf8EncodeChar (join (b.toNat % 16) [b₁, b₂]) = [b, b₁, b₂] := by
  have hsecond := secondOfThree_iff.1 h₁
  have htail := isTail_iff.1 h₂
  simp only [join, List.foldl]
  unfold utf8EncodeChar
  rw [toNat_ofNat (by omega)]
  dsimp only
  rw [if_neg (by omega), if_neg (by omega), if_pos (by omega), byte_eq b (by omega),
    byte_eq b₁ (by omega), byte_eq b₂ (by omega)]

theorem encode_four (h : 0xf0 ≤ b.toNat ∧ b.toNat ≤ 0xf4) (h₁ : secondOfFour b b₁ = true)
    (h₂ : isTail b₂ = true) (h₃ : isTail b₃ = true) :
    utf8EncodeChar (join (b.toNat % 8) [b₁, b₂, b₃]) = [b, b₁, b₂, b₃] := by
  have hsecond := secondOfFour_iff.1 h₁
  have hthird := isTail_iff.1 h₂
  have htail := isTail_iff.1 h₃
  simp only [join, List.foldl]
  unfold utf8EncodeChar
  rw [toNat_ofNat (by omega)]
  dsimp only
  rw [if_neg (by omega), if_neg (by omega), if_neg (by omega), byte_eq b (by omega),
    byte_eq b₁ (by omega), byte_eq b₂ (by omega), byte_eq b₃ (by omega)]

/-- What is read without a fault is encoded as the bytes that were read. -/
theorem flatMap_of_scan (h : scan pos bytes = (cs, none)) : cs.flatMap utf8EncodeChar = bytes := by
  fun_induction scan pos bytes generalizing cs
  case case1 =>
    cases h
    rfl
  case case2 hlead _ _ hrest ih =>
    cases h
    rw [List.flatMap_cons, ih hrest, encode_one (UInt8.lt_iff_toNat_lt.1 hlead)]
    rfl
  case case4 hlead _ _ htail _ _ hrest ih =>
    cases h
    rw [List.flatMap_cons, ih hrest,
      encode_two (by simpa [UInt8.le_iff_toNat_le] using hlead) htail]
    rfl
  case case9 hlead _ hsecond _ _ htail _ _ hrest ih =>
    cases h
    rw [List.flatMap_cons, ih hrest,
      encode_three (by simpa [UInt8.le_iff_toNat_le] using hlead) (by simpa using hsecond) htail]
    rfl
  case case16 hlead _ hsecond _ hthird _ _ htail _ _ hrest ih =>
    cases h
    rw [List.flatMap_cons, ih hrest,
      encode_four (by simpa [UInt8.le_iff_toNat_le] using hlead) (by simpa using hsecond)
        (by simpa using hthird) htail]
    rfl
  -- all other cases end at a fault
  all_goals cases h

theorem decode_eq_ok_iff {s : String} : decode bytes = .ok s ↔ bytes = encode s := by
  constructor
  · intro h
    rw [decode] at h
    split at h
    case h_1 cs hscan =>
      cases h
      rw [encode, String.toList_ofList, flatMap_of_scan hscan]
    case h_2 => cases h
  · rintro rfl
    exact decode_encode s

theorem encode_injective : Function.Injective encode := fun s _ h =>
  Except.ok.inj ((decode_encode s).symm.trans (decode_eq_ok_iff.2 h))

/-! ## The byte zero -/

theorem zero_eq_byte_iff (h : n < 256) : 0 = UInt8.ofNat n ↔ n = 0 := by
  rw [← UInt8.toNat_inj, toNat_byte h]
  exact eq_comm

/-- Only the character zero has the byte zero. -/
theorem zero_mem_utf8EncodeChar_iff : 0 ∈ utf8EncodeChar c ↔ c = '\x00' := by
  have hvalid := toNat_val_lt c
  have hc : c = '\x00' ↔ c.val.toNat = 0 := by
    rw [← Char.toNat_inj]
    rfl
  rw [hc]
  unfold utf8EncodeChar
  generalize c.val.toNat = v at hvalid
  dsimp only
  split
  · rw [List.mem_singleton, zero_eq_byte_iff (by omega)]
  split
  · rw [List.mem_cons, List.mem_singleton, zero_eq_byte_iff (by omega),
      zero_eq_byte_iff (by omega)]
    omega
  split
  · rw [List.mem_cons, List.mem_cons, List.mem_singleton, zero_eq_byte_iff (by omega),
      zero_eq_byte_iff (by omega), zero_eq_byte_iff (by omega)]
    omega
  · rw [List.mem_cons, List.mem_cons, List.mem_cons, List.mem_singleton,
      zero_eq_byte_iff (by omega), zero_eq_byte_iff (by omega), zero_eq_byte_iff (by omega),
      zero_eq_byte_iff (by omega)]
    omega

theorem zero_mem_encode_iff {s : String} : 0 ∈ encode s ↔ '\x00' ∈ s.toList := by
  simp [encode, zero_mem_utf8EncodeChar_iff]

end AudioFeatures.Text.Utf8
