import AudioFeatures.Proofs.Decoded.Recoverable
import AudioFeatures.Proofs.Text.Offsets
import AudioFeatures.Proofs.Text.Utf8

/-! # Bytes taken for characters

A text may be looked at byte by byte, with every byte taken for the character of its value. ASCII
characters are seen where they stand and nowhere else, because every byte of another character lies
above them. So a run of ASCII characters is as long in bytes, and it ends between two characters.
-/

namespace AudioFeatures.Text

open String (utf8EncodeChar utf8Len)

variable {p : Char → Bool} {s t u : List Char} {c d : Char}

/-- The bytes of a text, each taken for the character of its value. -/
def byteChars (s : List Char) : List Char :=
  (s.flatMap utf8EncodeChar).map fun b => Char.ofNat b.toNat

theorem byteChars_append (s t : List Char) : byteChars (s ++ t) = byteChars s ++ byteChars t := by
  simp [byteChars]

theorem length_byteChars (s : List Char) : (byteChars s).length = utf8Len s := by
  induction s with
  | nil => rfl
  | cons c s ih =>
    rw [← List.singleton_append, byteChars_append, List.length_append, ih, List.singleton_append,
      String.utf8Len_cons, Nat.add_comm, byteChars, List.flatMap_singleton, List.length_map,
      String.length_utf8EncodeChar]

theorem size_eq_utf8Len (s : String) : Utf8.size s = utf8Len s.toList := by
  rw [← length_byteChars, byteChars, List.length_map]
  rfl

theorem length_le_utf8Len (s : List Char) : s.length ≤ utf8Len s := by
  induction s with
  | nil => exact Nat.zero_le _
  | cons c s ih => exact Nat.add_le_add ih c.utf8Size_pos

theorem utf8Len_pos (h : s ≠ []) : 0 < utf8Len s :=
  (List.length_pos_iff.2 h).trans_le (length_le_utf8Len s)

theorem byteChars_of_lt (h : c.toNat < 0x80) : byteChars [c] = [c] := by
  have hbytes : utf8EncodeChar c = [UInt8.ofNat c.toNat] := if_pos (Nat.le_of_lt_succ h)
  rw [byteChars, List.flatMap_singleton, hbytes, List.map_singleton, Utf8.toNat_byte (by omega),
    Char.ofNat_toNat]

theorem le_of_mem_utf8EncodeChar {b : UInt8} (h : 0x80 ≤ c.toNat) (hb : b ∈ utf8EncodeChar c) :
    0x80 ≤ b.toNat := by
  change 0x80 ≤ c.val.toNat at h
  have hvalid := Utf8.toNat_val_lt c
  unfold utf8EncodeChar at hb
  generalize c.val.toNat = v at h hvalid hb
  have hbyte {n : Nat} (hlow : 0x80 ≤ n) (hhigh : n < 0x100) : 0x80 ≤ (UInt8.ofNat n).toNat := by
    rwa [Utf8.toNat_byte hhigh]
  dsimp only at hb
  split at hb
  · omega
  split at hb
  · simp only [List.mem_cons, List.not_mem_nil, or_false] at hb
    rcases hb with rfl | rfl <;> exact hbyte (by omega) (by omega)
  split at hb
  · simp only [List.mem_cons, List.not_mem_nil, or_false] at hb
    rcases hb with rfl | rfl | rfl <;> exact hbyte (by omega) (by omega)
  · simp only [List.mem_cons, List.not_mem_nil, or_false] at hb
    rcases hb with rfl | rfl | rfl | rfl <;> exact hbyte (by omega) (by omega)

/-- No byte of a character above ASCII is taken for an ASCII character. -/
theorem le_of_mem_byteChars (h : 0x80 ≤ c.toNat) (hd : d ∈ byteChars [c]) : 0x80 ≤ d.toNat := by
  rw [byteChars, List.flatMap_singleton] at hd
  obtain ⟨b, hb, rfl⟩ := List.mem_map.1 hd
  have hsmall : b.toNat < 0x100 := b.toNat_lt
  rw [Char.toNat_ofNat, if_pos (.inl (by omega))]
  exact le_of_mem_utf8EncodeChar h hb

theorem drop_byteChars (s t : List Char) : (byteChars (s ++ t)).drop (utf8Len s) = byteChars t := by
  rw [byteChars_append, ← length_byteChars, List.drop_left]

theorem getElem?_byteChars (s t : List Char) :
    (byteChars (s ++ t))[utf8Len s]? = (byteChars t).head? := by
  rw [← drop_byteChars s t, List.head?_drop]

theorem utf8Len_of_isAscii (h : IsAscii s) : utf8Len s = s.length := by
  induction s with
  | nil => rfl
  | cons c s ih =>
    obtain ⟨hc, hs⟩ := List.forall_mem_cons.1 h
    have hsize : c.utf8Size = 1 :=
      Char.utf8Size_eq_one_iff.2 (UInt32.le_iff_toNat_le.2 (Nat.le_of_lt_succ hc))
    rw [String.utf8Len_cons, ih hs, hsize, List.length_cons]

theorem stops_iff : Stops p s ↔ s.head?.any p = false := by
  cases s <;> simp

/-! ## Classes of ASCII characters -/

/-- Every character of the class is a single byte. -/
def IsAsciiClass (p : Char → Bool) : Prop := ∀ c, p c = true → c.toNat < 0x80

namespace IsAsciiClass

theorem eq_false (hp : IsAsciiClass p) (h : 0x80 ≤ c.toNat) : p c = false := by
  by_contra hc
  exact absurd (hp c (by simpa using hc)) (Nat.not_lt.2 h)

theorem stops_byteChars (hp : IsAsciiClass p) (h : 0x80 ≤ c.toNat) (s : List Char) :
    Stops p (byteChars (c :: s)) := by
  have hne : byteChars [c] ≠ [] := by
    rw [← List.length_pos_iff, length_byteChars]
    exact utf8Len_pos (List.cons_ne_nil c [])
  rw [← List.singleton_append, byteChars_append, stops_append_of_ne_nil hne]
  exact fun d hd => hp.eq_false (le_of_mem_byteChars h (List.mem_of_head? hd))

/-- A class sees the same first character in the bytes of a text as in the text. -/
theorem any_head?_byteChars (hp : IsAsciiClass p) (s : List Char) :
    (byteChars s).head?.any p = s.head?.any p := by
  cases s with
  | nil => rfl
  | cons c s =>
    rcases Nat.lt_or_ge c.toNat 0x80 with h | h
    · rw [← List.singleton_append, byteChars_append, byteChars_of_lt h]
      rfl
    · rw [stops_iff.1 (hp.stops_byteChars h s), List.head?_cons, Option.any_some, hp.eq_false h]

theorem takeWhile_byteChars (hp : IsAsciiClass p) (s : List Char) :
    (byteChars s).takeWhile p = s.takeWhile p := by
  induction s with
  | nil => rfl
  | cons c s ih =>
    rcases Nat.lt_or_ge c.toNat 0x80 with h | h
    · rw [← List.singleton_append, byteChars_append, byteChars_of_lt h, List.singleton_append,
        List.singleton_append, List.takeWhile_cons, List.takeWhile_cons, ih]
    · rw [List.takeWhile_cons_of_neg (by simp [hp.eq_false h])]
      simpa using takeWhile_append_of_stops (s := []) (by simp) (hp.stops_byteChars h s)

theorem or {q : Char → Bool} (hp : IsAsciiClass p) (hq : IsAsciiClass q) :
    IsAsciiClass fun c => p c || q c := by
  intro c hc
  rw [Bool.or_eq_true] at hc
  exact hc.elim (hp c) (hq c)

theorem isAscii_takeWhile (hp : IsAsciiClass p) (s : List Char) : IsAscii (s.takeWhile p) :=
  fun c hc => hp c (List.mem_takeWhile_imp hc)

end IsAsciiClass

theorem toNat_lt_of_le (h : c.val ≤ d.val) (hd : d.toNat < 0x80) : c.toNat < 0x80 :=
  Nat.lt_of_le_of_lt (UInt32.le_iff_toNat_le.1 h) hd

theorem isAsciiClass_eq (hd : d.toNat < 0x80) : IsAsciiClass (· == d) := by
  intro c hc
  rwa [eq_of_beq hc]

theorem isAsciiClass_isDigit : IsAsciiClass Char.isDigit := by
  intro c hc
  simp only [Char.isDigit, Bool.and_eq_true, decide_eq_true_eq] at hc
  exact toNat_lt_of_le (d := '9') hc.2 (by decide)

theorem isAsciiClass_isAlpha : IsAsciiClass Char.isAlpha := by
  intro c hc
  simp only [Char.isAlpha, Char.isUpper, Char.isLower, Bool.or_eq_true, Bool.and_eq_true,
    decide_eq_true_eq] at hc
  rcases hc with ⟨-, hc⟩ | ⟨-, hc⟩
  · exact toNat_lt_of_le (d := 'Z') hc (by decide)
  · exact toNat_lt_of_le (d := 'z') hc (by decide)

theorem isAsciiClass_isAsciiBlank : IsAsciiClass isAsciiBlank :=
  ((((isAsciiClass_eq (by decide)).or (isAsciiClass_eq (by decide))).or
    (isAsciiClass_eq (by decide))).or (isAsciiClass_eq (by decide))).or
      (isAsciiClass_eq (by decide))

theorem slice?_append (s t u : List Char) :
    slice? (s ++ (t ++ u)) (utf8Len s) (utf8Len s + utf8Len t) = some t := by
  rw [← List.append_assoc, ← String.utf8Len_append, slice?, splitAt?_utf8Len]
  simp [splitAt?_utf8Len]

/-- The run of a class that starts at an offset ends where the bytes say. -/
theorem slice?_takeWhile (hp : IsAsciiClass p) (s t : List Char) :
    slice? (s ++ t) (utf8Len s) (utf8Len s + (t.takeWhile p).length) = some (t.takeWhile p) := by
  rw [← utf8Len_of_isAscii (hp.isAscii_takeWhile t)]
  have h := slice?_append s (t.takeWhile p) (t.dropWhile p)
  rwa [List.takeWhile_append_dropWhile] at h

end AudioFeatures.Text
