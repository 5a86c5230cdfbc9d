import AudioFeatures.Proofs.Text.Trim
import AudioFeatures.Text.Digits

/-! # Byte offsets

A text can be divided between two characters only. The offset of such a place is the number of bytes
in front of it, so the offset behind the one where a character starts is a place to divide the text
only if that character is a single byte.
-/

namespace AudioFeatures.Text

open String (utf8Len)

variable {p : Char → Bool} {s t u : List Char} {c : Char} {n : Nat}

/-- The two parts of a text at a byte offset. No text is divided inside a character or behind its
end. -/
def splitAt? : List Char → Nat → Option (List Char × List Char)
  | s, 0 => some ([], s)
  | [], _ + 1 => none
  | c :: s, n + 1 =>
    if c.utf8Size ≤ n + 1 then
      (splitAt? s (n + 1 - c.utf8Size)).map fun parts => (c :: parts.1, parts.2)
    else none

@[simp] theorem splitAt?_zero (s : List Char) : splitAt? s 0 = some ([], s) := by
  cases s <;> rfl

theorem splitAt?_cons (c : Char) (s : List Char) (n : Nat) :
    splitAt? (c :: s) (c.utf8Size + n) =
      (splitAt? s n).map fun parts => (c :: parts.1, parts.2) := by
  obtain ⟨k, hk⟩ := Nat.exists_eq_succ_of_ne_zero (Nat.ne_of_gt c.utf8Size_pos)
  have hsum : c.utf8Size + n = k + n + 1 := by omega
  rw [hsum, splitAt?, if_pos (by omega), show k + n + 1 - c.utf8Size = n by omega]

theorem splitAt?_append (s t : List Char) (n : Nat) :
    splitAt? (s ++ t) (utf8Len s + n) =
      (splitAt? t n).map fun parts => (s ++ parts.1, parts.2) := by
  induction s with
  | nil => simp
  | cons c s ih =>
    rw [List.cons_append, String.utf8Len_cons, Nat.add_comm (utf8Len s), Nat.add_assoc,
      splitAt?_cons, ih, Option.map_map]
    rfl

theorem splitAt?_utf8Len (s t : List Char) : splitAt? (s ++ t) (utf8Len s) = some (s, t) := by
  simpa using splitAt?_append s t 0

theorem splitAt?_eq_some_iff : splitAt? s n = some (t, u) ↔ s = t ++ u ∧ utf8Len t = n := by
  constructor
  · intro h
    induction s generalizing n t with
    | nil =>
      cases n with
      | zero => cases h; exact ⟨rfl, rfl⟩
      | succ n => cases h
    | cons c s ih =>
      cases n with
      | zero => cases h; exact ⟨rfl, rfl⟩
      | succ n =>
        rw [splitAt?] at h
        split at h
        case isTrue hle =>
          obtain ⟨⟨t, u⟩, hparts, h⟩ := Option.map_eq_some_iff.1 h
          cases h
          obtain ⟨rfl, hlength⟩ := ih hparts
          refine ⟨rfl, ?_⟩
          rw [String.utf8Len_cons, hlength]
          omega
        case isFalse => cases h
  · rintro ⟨rfl, rfl⟩
    exact splitAt?_utf8Len t u

/-- These are the places that the library calls valid positions. -/
theorem exists_splitAt?_iff (s : String) (n : Nat) :
    (∃ parts, splitAt? s.toList n = some parts) ↔ String.Pos.Raw.IsValid s ⟨n⟩ := by
  rw [String.Pos.Raw.isValid_iff_exists_append]
  constructor
  · rintro ⟨⟨t, u⟩, h⟩
    obtain ⟨hs, rfl⟩ := splitAt?_eq_some_iff.1 h
    refine ⟨String.ofList t, String.ofList u, ?_, ?_⟩
    · rw [← String.ofList_append, ← hs, String.ofList_toList]
    · ext
      exact (String.utf8ByteSize_ofList t).symm
  · rintro ⟨s₁, s₂, rfl, h⟩
    have hn : n = utf8Len s₁.toList := by
      rw [String.utf8Len_toList]
      exact congrArg String.Pos.Raw.byteIdx h
    rw [hn, String.toList_append]
    exact ⟨_, splitAt?_utf8Len _ _⟩

/-- One byte is a whole character only in ASCII. -/
theorem splitAt?_one (c : Char) (s : List Char) :
    splitAt? (c :: s) 1 = if c.toNat < 0x80 then some ([c], s) else none := by
  have hsize : c.utf8Size = 1 ↔ c.toNat < 0x80 := by
    rw [Char.utf8Size_eq_one_iff, UInt32.le_iff_toNat_le]
    exact Nat.lt_succ_iff.symm
  by_cases h : c.toNat < 0x80
  · rw [if_pos h]
    simpa [hsize.2 h] using splitAt?_cons c s 0
  · have hlarge : ¬c.utf8Size ≤ 1 := by
      have := c.utf8Size_pos
      have := mt hsize.1 h
      omega
    rw [if_neg h, splitAt?, if_neg hlarge]

/-- The part of a text between two byte offsets. -/
def slice? (s : List Char) (start stop : Nat) : Option (List Char) := do
  let (front, _) ← splitAt? s stop
  let (_, part) ← splitAt? front start
  return part

theorem slice?_zero (s t : List Char) : slice? (s ++ t) 0 (utf8Len s) = some s := by
  simp [slice?, splitAt?_utf8Len]

/-- Where the first character of a class starts. -/
def firstOffset? (p : Char → Bool) (s : List Char) : Option Nat :=
  if s.any p then some (utf8Len (s.takeWhile fun c => !p c)) else none

/-- Where the last character of a class starts. -/
def lastOffset? (p : Char → Bool) (s : List Char) : Option Nat :=
  if s.any p then some (utf8Len (s.rdropWhile fun c => !p c).dropLast) else none

/-- Where the first occurrence of a marker starts. -/
def markerOffset? (marker : List Char) : List Char → Option Nat
  | [] => if marker.isEmpty then some 0 else none
  | c :: s =>
    if marker.isPrefixOf (c :: s) then some 0
    else (markerOffset? marker s).map (c.utf8Size + ·)

theorem firstOffset?_append (hs : ∀ d ∈ s, p d = false) (hc : p c = true) :
    firstOffset? p (s ++ c :: t) = some (utf8Len s) := by
  rw [firstOffset?, if_pos (by simp [hc]),
    takeWhile_append_of_stops (fun d hd => by simp [hs d hd]) (stops_cons.2 (by simp [hc]))]

theorem lastOffset?_append (ht : ∀ d ∈ t, p d = false) (hc : p c = true) :
    lastOffset? p (s ++ c :: t) = some (utf8Len s) := by
  have hstop : Stops (fun c => !p c) (s ++ [c]).reverse := by
    rw [List.reverse_append]
    exact stops_cons.2 (by simp [hc])
  rw [lastOffset?, if_pos (by simp [hc]), List.append_cons,
    rdropWhile_append_of_stops hstop fun d hd => by simp [ht d hd], List.dropLast_concat]

theorem firstOffset?_eq_none (h : ∀ d ∈ s, p d = false) : firstOffset? p s = none :=
  if_neg (by simpa using h)

theorem lastOffset?_eq_none (h : ∀ d ∈ s, p d = false) : lastOffset? p s = none :=
  if_neg (by simpa using h)

/-- The marker is found where the text that follows it says. -/
theorem markerOffset?_spec (marker s : List Char) :
    (after? marker s = none ∧ markerOffset? marker s = none) ∨
    ∃ front rest, s = front ++ (marker ++ rest) ∧ after? marker s = some rest ∧
      markerOffset? marker s = some (utf8Len front) := by
  induction s with
  | nil =>
    cases marker with
    | nil => exact .inr ⟨[], [], rfl, rfl, rfl⟩
    | cons m ms => exact .inl ⟨rfl, rfl⟩
  | cons c s ih =>
    by_cases hp : marker.isPrefixOf (c :: s) = true
    · obtain ⟨rest, hrest⟩ := List.isPrefixOf_iff_prefix.1 hp
      refine .inr ⟨[], rest, hrest.symm, ?_, ?_⟩
      · rw [after?, if_pos hp, ← hrest, List.drop_left]
      · rw [markerOffset?, if_pos hp]
        rfl
    · rw [after?, if_neg hp, markerOffset?, if_neg hp]
      rcases ih with ⟨hafter, hoffset⟩ | ⟨front, rest, rfl, hafter, hoffset⟩
      · exact .inl ⟨hafter, by rw [hoffset, Option.map_none]⟩
      · refine .inr ⟨c :: front, rest, rfl, hafter, ?_⟩
        rw [hoffset, Option.map_some, String.utf8Len_cons, Nat.add_comm]

end AudioFeatures.Text
