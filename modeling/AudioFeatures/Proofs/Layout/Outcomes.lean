import AudioFeatures.Proofs.Layout.Reader

/-! # What reading a format comes to

A format names a layout, is malformed or is not supported. There is one other end: the length of an
array would start inside a character. This depends on nothing but the text in front of the first
comma behind the first marker of an array.
-/

namespace AudioFeatures.Layout

open Text Reader

variable {format : String} {s body : List Char}

/-- A layout, or one of two errors that name the format. -/
inductive Settled (format : String) : Except Error Layout → Prop
  | ok (l : Layout) : Settled format (.ok l)
  | malformed : Settled format (.error (.malformedFormat format))
  | unsupported : Settled format (.error (.unsupportedFormat format))

theorem Settled.map {r : Except Error Layout} (h : Settled format r) (f : Layout → Layout) :
    Settled format (r.map f) := by
  cases h with
  | ok l => exact .ok (f l)
  | malformed => exact .malformed
  | unsupported => exact .unsupported

theorem settled_element (format : String) (s : List Char) : Settled format (element format s) := by
  rw [element_eq]
  split
  · exact .malformed
  · split
    · exact .ok _
    · exact .unsupported

theorem settled_window (format : String) (s : List Char) :
    Settled format (Reader.window format s) := by
  rw [Reader.window]
  split
  · exact (settled_element format _).map _
  · exact .malformed

theorem settled_of_after? (h : after? arrayMarker (trim format.toList) = none) :
    Settled format (parse format) := by
  rw [parse]
  split
  · exact .malformed
  split
  · split
    · exact .malformed
    · exact .ok _
  rw [show "FixedArray<".toList = arrayMarker from rfl, h]
  dsimp only
  split
  · exact settled_window format _
  split
  · exact .unsupported
  · exact .malformed

/-- The number in front of the first comma starts inside a character. -/
def Splits (body : List Char) : Prop :=
  ',' ∈ body ∧ lengthIn (body.takeWhile (· != ',')) = .split

theorem splits_append {length : List Char} (h : ',' ∉ length) (rest : List Char) :
    Splits (length ++ ',' :: rest) ↔ lengthIn length = .split := by
  simp [Splits, takeWhile_ne_append h]

theorem fixedArray_cases (format : String) (body : List Char) :
    Splits body ∧ Reader.fixedArray format body = .error (.splitCharacter format) ∨
      ¬Splits body ∧ Settled format (Reader.fixedArray format body) := by
  by_cases hc : ',' ∈ body
  · obtain ⟨length, rest, rfl, hlength⟩ := List.eq_append_cons_of_mem hc
    rw [splits_append hlength, fixedArray_append hlength]
    cases lengthIn length with
    | missing => exact .inr ⟨nofun, .malformed⟩
    | split => exact .inl ⟨rfl, rfl⟩
    | number n =>
      refine .inr ⟨nofun, ?_⟩
      dsimp only
      split
      · exact .malformed
      · exact (settled_element format _).map _
  · rw [fixedArray_of_not_mem hc]
    exact .inr ⟨fun h => hc h.1, .malformed⟩

/-- A character of several bytes stands right in front of the last number that there is in front of
the first comma behind the first marker. -/
def SplitsLength (format : String) : Prop :=
  ∃ front length rest, format.toList = front ++ (arrayMarker ++ (length ++ ',' :: rest)) ∧
    (∀ f r, format.toList = f ++ (arrayMarker ++ r) → front.length ≤ f.length) ∧ ',' ∉ length ∧
    ∃ f c digits r, IsLastRun length (f ++ [c]) digits r ∧ 0x80 ≤ c.toNat

theorem lengthIn_eq_split_iff : lengthIn s = .split ↔
    ∃ f c digits r, IsLastRun s (f ++ [c]) digits r ∧ 0x80 ≤ c.toNat := by
  constructor
  · intro h
    by_cases hdigit : ∃ c ∈ s, c.isDigit = true
    · obtain ⟨front, digits, rest, hrun⟩ := exists_isLastRun hdigit
      rw [hrun.lengthIn_eq] at h
      split at h
      · cases h
      case isFalse hascii =>
        rcases List.eq_nil_or_concat' front with rfl | ⟨f, c, rfl⟩
        · simp at hascii
        · exact ⟨f, c, digits, rest, hrun, by simpa using hascii⟩
    · have hnone : ∀ c ∈ s, c.isDigit = false := by simpa using hdigit
      rw [lengthIn_of_forall hnone] at h
      cases h
  · rintro ⟨f, c, digits, r, hrun, hc⟩
    rw [hrun.lengthIn_eq, if_neg]
    intro hascii
    have := hascii c (by simp)
    omega

/-- Trimming a format moves nothing in the name of an array but its end. -/
theorem after?_trim (s : List Char) :
    after? arrayMarker (trim s) = (after? arrayMarker s).map trimEnd := by
  cases hs : after? arrayMarker s with
  | none =>
    rw [Option.map_none, after?_eq_none_iff]
    have htrim : trim s <:+: s :=
      (isPrefix_trimEnd _).isInfix.trans (isSuffix_trimStart s).isInfix
    exact fun hmarker => after?_eq_none_iff.1 hs (hmarker.trans htrim)
  | some rest =>
    obtain ⟨front, rfl, hfirst⟩ := after?_eq_some_iff.1 hs
    have hfront : ¬arrayMarker <:+: front := by
      rintro ⟨f, g, rfl⟩
      have hle := hfirst f (g ++ (arrayMarker ++ rest)) (by simp)
      rw [List.append_assoc, List.length_append, List.length_append] at hle
      exact absurd hle (Nat.not_le.2 (Nat.lt_add_of_pos_right (Nat.add_pos_left (by decide) _)))
    rw [trim_append_arrayMarker]
    refine after?_append_of_not_infix (by decide) (fun hmarker => hfront ?_) _
    exact hmarker.trans (isSuffix_trimStart front).isInfix

theorem splitsLength_iff : SplitsLength format ↔
    ∃ body, after? arrayMarker (trim format.toList) = some body ∧ Splits body := by
  rw [after?_trim]
  constructor
  · rintro ⟨front, length, rest, hs, hfirst, hlength, hsplit⟩
    refine ⟨length ++ ',' :: trimEnd rest, ?_, ?_⟩
    · rw [after?_eq_some_iff.2 ⟨front, hs, hfirst⟩, Option.map_some,
        trimEnd_append_cons (by decide)]
    · rw [splits_append hlength]
      exact lengthIn_eq_split_iff.2 hsplit
  · rintro ⟨body, hbody, hsplits⟩
    obtain ⟨after, hafter, rfl⟩ := Option.map_eq_some_iff.1 hbody
    obtain ⟨front, hs, hfirst⟩ := after?_eq_some_iff.1 hafter
    obtain ⟨length, rest, hrest, hlength⟩ := List.eq_append_cons_of_mem hsplits.1
    obtain ⟨blanks, -, hblanks⟩ := exists_trimEnd_append after
    rw [hrest, splits_append hlength] at hsplits
    refine ⟨front, length, rest ++ blanks, ?_, hfirst, hlength, lengthIn_eq_split_iff.1 hsplits⟩
    rw [hs, hblanks, hrest]
    simp

theorem parse_cases (format : String) :
    SplitsLength format ∧ parse format = .error (.splitCharacter format) ∨
      ¬SplitsLength format ∧ Settled format (parse format) := by
  rw [splitsLength_iff]
  cases hafter : after? arrayMarker (trim format.toList) with
  | none => exact .inr ⟨by simp, settled_of_after? hafter⟩
  | some body =>
    rw [parse_of_after? hafter]
    simpa using fixedArray_cases format body

end AudioFeatures.Layout
