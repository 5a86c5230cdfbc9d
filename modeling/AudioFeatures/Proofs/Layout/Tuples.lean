import AudioFeatures.Proofs.Layout.Reader

/-! # Tuples

A tuple is a format that is refused, but a fixed array is looked for first and anywhere in the text.
So a tuple is refused as one only where none of its components is a fixed array, or where something
other than the name of a type follows the first of these.
-/

namespace AudioFeatures.Layout

open Text Reader

variable {format : String}

/-- How the name of a tuple starts. -/
def tupleOpenings : List String := ["std::tuple<", "tuple<", "Tuple<"]

/-- Blanks aside, the format starts as a tuple does. -/
def NamesTuple (format : String) : Prop :=
  ∃ o ∈ tupleOpenings, o.toList <+: trim format.toList

instance (format : String) : Decidable (NamesTuple format) :=
  inferInstanceAs (Decidable (∃ o ∈ tupleOpenings, _))

/-- The first fixed array in a text has rows of length `n`, and `name` is what is in them. -/
def FirstArray (s : List Char) (n : Nat) (name : List Char) : Prop :=
  ∃ front body, s = front ++ (arrayMarker ++ body) ∧
    (∀ f r, s = f ++ (arrayMarker ++ r) → front.length ≤ f.length) ∧ Announces body n name

theorem firstArray_iff {s : List Char} {n : Nat} {name : List Char} :
    FirstArray s n name ↔ ∃ body, after? arrayMarker s = some body ∧ Announces body n name := by
  constructor
  · rintro ⟨front, body, hs, hfirst, ha⟩
    exact ⟨body, after?_eq_some_iff.2 ⟨front, hs, hfirst⟩, ha⟩
  · rintro ⟨body, hbody, ha⟩
    obtain ⟨front, hs, hfirst⟩ := after?_eq_some_iff.1 hbody
    exact ⟨front, body, hs, hfirst, ha⟩

/-- The opening of a tuple is an angle bracket behind one of the markers, and no window. -/
theorem opening_facts : ∀ o ∈ tupleOpenings, '<' ∈ o.toList ∧ o.toList.head? ≠ some 'W' ∧
    ∃ m ∈ tupleMarkers, m.toList <+: o.toList := by
  decide

/-- A tuple is read by what stands behind the first `FixedArray<` in it. -/
theorem parse_tuple_eq (h : NamesTuple format) : parse format =
    match after? arrayMarker (trim format.toList) with
    | none => .error (.unsupportedFormat format)
    | some body => Reader.fixedArray format body := by
  obtain ⟨o, ho, rest, hrest⟩ := h
  obtain ⟨hopen, hhead, m, hm, hmarker⟩ := opening_facts o ho
  have hmem : '<' ∈ trim format.toList := hrest ▸ List.mem_append_left rest hopen
  have hwindow : ¬"Window<".toList <+: trim format.toList := by
    rintro ⟨r, hr⟩
    rw [← hrest] at hr
    cases ho : o.toList with
    | nil => simp [ho] at hopen
    | cons c t =>
      rw [ho] at hr hhead
      exact hhead (congrArg some (List.cons.inj hr).1.symm)
  have hany : (tupleMarkers.any fun m => m.toList.isPrefixOf (trim format.toList)) = true := by
    refine List.any_eq_true.2 ⟨m, hm, ?_⟩
    rw [List.isPrefixOf_iff_prefix, ← hrest]
    exact hmarker.trans (List.prefix_append _ _)
  rw [parse]
  split
  case h_1 hnil => simp [hnil] at hmem
  case h_2 =>
    rw [if_neg (by simpa using hmem)]
    rw [show "FixedArray<".toList = arrayMarker from rfl]
    cases after? arrayMarker (trim format.toList) with
    | some body => rfl
    | none =>
      dsimp only
      rw [if_neg (by simpa using hwindow), if_pos hany]

/-- A tuple is refused as one exactly if it names no fixed array, or something other than a type
follows the first one; it is taken for rows exactly if the name of a type follows. -/
theorem parse_of_namesTuple (h : NamesTuple format) :
    (parse format = .error (.unsupportedFormat format) ↔
      ¬arrayMarker <:+: trim format.toList ∨
        ∃ n name, FirstArray (trim format.toList) n name ∧ ¬Flat name) ∧
    ∀ l, parse format = .ok l ↔
      ∃ n name, FirstArray (trim format.toList) n name ∧ name ≠ [] ∧ Flat name ∧
        l = .fixedArray n (.scalar (String.ofList name)) := by
  rw [parse_tuple_eq h, ← after?_eq_none_iff]
  simp only [firstArray_iff]
  cases after? arrayMarker (trim format.toList) with
  | none => simp
  | some body =>
    simp only [fixedArray_eq_unsupported_iff, fixedArray_eq_ok_iff]
    simp

/-- Arrays that are no last component are refused with the tuple. -/
theorem parse_of_namesTuple_inner :
    NamesTuple " tuple<FixedArray<(unsigned long)4, float>, int>" ∧
      parse " tuple<FixedArray<(unsigned long)4, float>, int>" =
        .error (.unsupportedFormat " tuple<FixedArray<(unsigned long)4, float>, int>") := by
  have h : NamesTuple " tuple<FixedArray<(unsigned long)4, float>, int>" := by decide
  have hfirst : FirstArray (trim " tuple<FixedArray<(unsigned long)4, float>, int>".toList) 4
      "float>, int".toList :=
    firstArray_iff.2 ⟨"(unsigned long)4, float>, int>".toList, by decide,
      "(unsigned long)4".toList, " float>, int>".toList, by decide⟩
  exact ⟨h, (parse_of_namesTuple h).1.2 (.inr ⟨4, _, hfirst, by decide⟩)⟩

/-- A tuple whose last component is an array is taken for that array. -/
theorem parse_tuple_ne_unsupported :
    NamesTuple "std::tuple<int, FixedArray<(unsigned long)4, float>>" ∧
      parse "std::tuple<int, FixedArray<(unsigned long)4, float>>" =
        .ok (.fixedArray 4 (.scalar "float")) :=
  ⟨by decide, by cbv⟩

end AudioFeatures.Layout
