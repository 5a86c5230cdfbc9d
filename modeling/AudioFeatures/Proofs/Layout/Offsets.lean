import AudioFeatures.Proofs.Decoded.Recoverable
import AudioFeatures.Proofs.Text.Offsets

/-! # Formats read by offsets

The name of an array is taken apart at byte offsets that are found by searching forward and
backward. All of them lie between two characters but one: the offset behind the character in front
of the last number, when that character has several bytes.
-/

namespace AudioFeatures.Layout

open Text
open String (utf8Len)

variable {format : String} {s : List Char}

namespace Sliced

/-- The last number in a text, if there is one and a word can hold it. -/
def lastNumber? (s : List Char) : Option (Option Nat) :=
  match lastOffset? Char.isDigit s with
  | none => some none
  | some last => do
    let upToRun ← slice? s 0 (last + 1)
    let start := match lastOffset? (fun c => !c.isDigit) upToRun with
      | none => 0
      | some i => i + 1
    let n := natOfDigits (← slice? s start (last + 1))
    return if n < UInt64.size then some n else none

/-- The part of a format behind the marker of arrays. -/
def fixedArray (format : String) (body : List Char) : Option (Except Error Layout) :=
  match firstOffset? (· == ',') body with
  | none => some (.error (.malformedFormat format))
  | some comma => do
    match ← lastNumber? (← slice? body 0 comma) with
    | none | some 0 => return .error (.malformedFormat format)
    | some n =>
      let (_, rest) ← splitAt? body (comma + 1)
      return (Reader.element format (rest.rdropWhile Reader.isClosing)).map (.fixedArray n)

/-- The layout that a format names. No offset is needed for the formats without the marker. -/
def parse (format : String) : Option (Except Error Layout) :=
  match markerOffset? arrayMarker (trim format.toList) with
  | none => some (Layout.parse format)
  | some i => do
    let (_, body) ← splitAt? (trim format.toList) (i + utf8Len arrayMarker)
    fixedArray format body

end Sliced

open Reader Sliced

/-! ## The last number -/

theorem utf8Size_of_isDigit {c : Char} (h : c.isDigit = true) : c.utf8Size = 1 := by
  simp only [Char.isDigit, Bool.and_eq_true, decide_eq_true_eq] at h
  rw [Char.utf8Size_eq_one_iff, UInt32.le_iff_toNat_le]
  have hle := UInt32.le_iff_toNat_le.1 h.2
  exact hle.trans (by decide)

namespace Reader.IsLastRun

variable {front digits rest : List Char}

/-- The offset behind the last digit is the end of the run. -/
theorem lastOffset?_isDigit (h : IsLastRun s front digits rest) : ∃ last,
    lastOffset? Char.isDigit s = some last ∧ last + 1 = utf8Len (front ++ digits) := by
  obtain ⟨ds, d, rfl⟩ := (List.eq_nil_or_concat' digits).resolve_left h.ne_nil
  have hd : d.isDigit = true := h.digits d (by simp)
  have hs : s = front ++ ds ++ d :: rest := by
    rw [h.eq]
    simp
  refine ⟨utf8Len (front ++ ds), ?_, ?_⟩
  · rw [hs, lastOffset?_append h.rest hd]
  · simp [utf8Size_of_isDigit hd, Nat.add_assoc]

theorem slice?_upToRun (h : IsLastRun s front digits rest) :
    slice? s 0 (utf8Len (front ++ digits)) = some (front ++ digits) := by
  rw [h.eq, ← List.append_assoc, slice?_zero]

/-- The offset behind the character in front of the run is the start of the run only if that
character is a single byte. -/
theorem slice?_run (h : IsLastRun s front digits rest) :
    slice? s
      (match lastOffset? (fun c => !c.isDigit) (front ++ digits) with
        | none => 0
        | some i => i + 1)
      (utf8Len (front ++ digits)) =
    if ∀ c ∈ front.getLast?, c.toNat < 0x80 then some digits else none := by
  have hdigits : ∀ c ∈ digits, (!c.isDigit) = false := fun c hc => by simp [h.digits c hc]
  rw [slice?, h.eq, ← List.append_assoc, splitAt?_utf8Len]
  rcases List.eq_nil_or_concat' front with rfl | ⟨f, c, rfl⟩
  · simp [lastOffset?_eq_none hdigits]
  · have hc : (!c.isDigit) = true := by simp [h.front c (by simp)]
    rw [List.append_assoc, List.singleton_append, lastOffset?_append hdigits hc]
    simp only [Option.bind_eq_bind, Option.bind_some, splitAt?_append, splitAt?_one]
    by_cases hascii : c.toNat < 0x80 <;> simp [hascii]

theorem lastNumber?_eq (h : IsLastRun s front digits rest) :
    lastNumber? s = if ∀ c ∈ front.getLast?, c.toNat < 0x80 then
      some (if natOfDigits digits < UInt64.size then some (natOfDigits digits) else none)
    else none := by
  obtain ⟨last, hlast, hstop⟩ := h.lastOffset?_isDigit
  have hrun := h.slice?_run
  rw [lastNumber?, hlast]
  dsimp only
  rw [hstop, h.slice?_upToRun, Option.bind_eq_bind, Option.bind_some, hrun]
  split <;> rfl

end Reader.IsLastRun

theorem lastNumber?_eq (s : List Char) : lastNumber? s =
    match lengthIn s with
    | .missing => some none
    | .split => none
    | .number n => some (if n < UInt64.size then some n else none) := by
  by_cases h : ∃ c ∈ s, c.isDigit = true
  · obtain ⟨front, digits, rest, hrun⟩ := exists_isLastRun h
    rw [hrun.lastNumber?_eq, hrun.lengthIn_eq]
    split <;> rfl
  · have hnone : ∀ c ∈ s, c.isDigit = false := by simpa using h
    rw [lengthIn_of_forall hnone, lastNumber?, lastOffset?_eq_none hnone]

/-- What is read, unless the last number is split off. -/
def unlessSplit : Except Error Layout → Option (Except Error Layout)
  | .error (.splitCharacter _) => none
  | r => some r

theorem Settled.unlessSplit_eq {r : Except Error Layout} (h : Settled format r) :
    unlessSplit r = some r := by
  cases h <;> rfl

theorem sliced_fixedArray_eq (format : String) (body : List Char) :
    Sliced.fixedArray format body = unlessSplit (Reader.fixedArray format body) := by
  by_cases hc : ',' ∈ body
  · obtain ⟨length, rest, rfl, hlength⟩ := List.eq_append_cons_of_mem hc
    have hcomma : firstOffset? (· == ',') (length ++ ',' :: rest) = some (utf8Len length) := by
      refine firstOffset?_append (fun c hc => ?_) (by simp)
      simpa using fun heq : c = ',' => hlength (heq ▸ hc)
    have hrest : splitAt? (length ++ ',' :: rest) (utf8Len length + 1) =
        some (length ++ [','], rest) := by
      rw [splitAt?_append, splitAt?_one, if_pos (by decide)]
      rfl
    rw [fixedArray_append hlength, Sliced.fixedArray, hcomma]
    dsimp only
    rw [slice?_zero, Option.bind_eq_bind, Option.bind_some, lastNumber?_eq]
    cases lengthIn length with
    | missing => rfl
    | split => rfl
    | number n =>
      have helement := (settled_element format (rest.rdropWhile isClosing)).map (.fixedArray n)
      by_cases hrange : n = 0 ∨ UInt64.size ≤ n
      · simp only [if_pos hrange]
        rcases hrange with rfl | hlarge
        · rfl
        · rw [if_neg (Nat.not_lt.2 hlarge)]
          rfl
      · obtain ⟨k, rfl⟩ := Nat.exists_eq_succ_of_ne_zero (not_or.1 hrange).1
        simp only [if_neg hrange, if_pos (Nat.lt_of_not_le (not_or.1 hrange).2),
          helement.unlessSplit_eq]
        rw [hrest]
        rfl
  · have hcomma : firstOffset? (· == ',') body = none := by
      refine firstOffset?_eq_none fun c hmem => ?_
      simpa using fun heq : c = ',' => hc (heq ▸ hmem)
    rw [fixedArray_of_not_mem hc, Sliced.fixedArray, hcomma]
    rfl

theorem sliced_parse_eq (format : String) : Sliced.parse format = unlessSplit (parse format) := by
  rcases markerOffset?_spec arrayMarker (trim format.toList) with
    ⟨hafter, hoffset⟩ | ⟨front, body, hs, hafter, hoffset⟩
  · rw [Sliced.parse, hoffset, (settled_of_after? hafter).unlessSplit_eq]
  · have hbody : splitAt? (trim format.toList) (utf8Len front + utf8Len arrayMarker) =
        some (front ++ arrayMarker, body) := by
      rw [hs, ← String.utf8Len_append, ← List.append_assoc, splitAt?_utf8Len]
    rw [Sliced.parse, hoffset, parse_of_after? hafter, ← sliced_fixedArray_eq]
    dsimp only
    rw [hbody]
    rfl

/-- No format is taken apart inside a character unless the length of its first array would start in
one. Every other format, and so every one of single bytes, is read as a layout or ends in one of
two errors, which name it. -/
theorem parse_outcome (format : String) :
    (Sliced.parse format = none ↔ SplitsLength format) ∧
    (parse format = .error (.splitCharacter format) ↔ SplitsLength format) ∧
    (¬SplitsLength format →
      Sliced.parse format = some (parse format) ∧ Settled format (parse format)) ∧
    (IsAscii format.toList → ¬SplitsLength format) := by
  rw [sliced_parse_eq]
  rcases parse_cases format with ⟨hsplits, hparse⟩ | ⟨hsplits, hsettled⟩
  · rw [hparse]
    exact ⟨iff_of_true rfl hsplits, iff_of_true rfl hsplits, fun h => absurd hsplits h,
      not_splitsLength_of_isAscii⟩
  · rw [hsettled.unlessSplit_eq]
    refine ⟨iff_of_false nofun hsplits, iff_of_false (fun h => ?_) hsplits,
      fun _ => ⟨rfl, hsettled⟩, not_splitsLength_of_isAscii⟩
    rw [h] at hsettled
    cases hsettled

example : Sliced.parse "FixedArray<é4, float>" = none := by cbv

end AudioFeatures.Layout
