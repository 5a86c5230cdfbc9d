import AudioFeatures.Layout.Reader
import AudioFeatures.Proofs.Fallible
import AudioFeatures.Proofs.Text.Trim

/-! # What the reader of formats finds

A marker is found where it first stands in a text. Behind it the reader wants a length up to the
first comma and the bare name of a type, and it tells a name that is no bare one from none at all.
-/

namespace AudioFeatures

namespace Text

variable {marker s rest : List Char}

theorem after?_cons_of_not_isPrefix {c : Char} (h : ¬marker <+: c :: s) :
    after? marker (c :: s) = after? marker s := by
  rw [after?, if_neg (by simpa using h)]

theorem after?_eq_none_iff : after? marker s = none ↔ ¬marker <:+: s := by
  induction s with
  | nil => cases marker <;> simp [after?]
  | cons c s ih =>
    by_cases h : marker <+: c :: s
    · obtain ⟨r, hr⟩ := h
      rw [← hr, after?_append]
      simp [List.IsPrefix.isInfix, List.prefix_append]
    · rw [after?_cons_of_not_isPrefix h, ih, List.infix_cons_iff]
      simp [h]

/-- What is found stands behind the first occurrence of the marker. -/
theorem after?_eq_some_iff : after? marker s = some rest ↔
    ∃ front, s = front ++ (marker ++ rest) ∧
      ∀ f r, s = f ++ (marker ++ r) → front.length ≤ f.length := by
  constructor
  · intro h
    induction s with
    | nil =>
      cases marker with
      | nil =>
        cases h
        exact ⟨[], rfl, by simp⟩
      | cons m ms => cases h
    | cons c s ih =>
      by_cases hp : marker <+: c :: s
      · obtain ⟨r, hr⟩ := hp
        rw [← hr, after?_append] at h
        cases h
        exact ⟨[], hr.symm, by simp⟩
      · rw [after?_cons_of_not_isPrefix hp] at h
        obtain ⟨front, rfl, hfirst⟩ := ih h
        refine ⟨c :: front, rfl, fun f r hf => ?_⟩
        cases f with
        | nil => exact absurd ⟨r, hf.symm⟩ hp
        | cons d f =>
          have := hfirst f r (List.cons.inj hf).2
          simpa using this
  · rintro ⟨front, hs, hfirst⟩
    induction front generalizing s with
    | nil => rw [hs, List.nil_append, after?_append]
    | cons c front ih =>
      have hp : ¬marker <+: c :: (front ++ (marker ++ rest)) := by
        rintro ⟨r, hr⟩
        have := hfirst [] r (by rw [hs, List.nil_append, hr]; rfl)
        simp at this
      rw [hs, List.cons_append, after?_cons_of_not_isPrefix hp]
      refine ih rfl fun f r hf => ?_
      have := hfirst (c :: f) r (by rw [hs, List.cons_append, hf, List.cons_append])
      simpa using this

/-- A marker whose first character does not come again in it is found behind any text that does not
hold it: no occurrence can start in the text and end in the marker. -/
theorem after?_append_of_not_infix {m : Char} {ms front : List Char} (hm : m ∉ ms)
    (h : ¬m :: ms <:+: front) (rest : List Char) :
    after? (m :: ms) (front ++ (m :: ms ++ rest)) = some rest := by
  induction front with
  | nil => exact after?_append _ _
  | cons c front ih =>
    have hp : ¬m :: ms <+: c :: (front ++ (m :: ms ++ rest)) := by
      intro hp
      by_cases hlength : ms.length ≤ front.length
      · have hfront : c :: front <+: c :: (front ++ (m :: ms ++ rest)) :=
          ⟨m :: ms ++ rest, rfl⟩
        refine h (List.prefix_of_prefix_length_le hp hfront ?_).isInfix
        simpa using hlength
      · -- the marker would have its first character once more, where the text ends
        have hi : front.length + 1 < (m :: ms).length := by
          rw [List.length_cons]
          omega
        have hchar := hp.getElem hi
        simp only [List.getElem_cons_succ] at hchar
        refine hm (List.mem_iff_getElem.2 ⟨front.length, by omega, hchar.trans ?_⟩)
        simp
    rw [List.cons_append, after?_cons_of_not_isPrefix hp]
    exact ih fun hinside => h (hinside.trans (List.suffix_cons c front).isInfix)

end Text

namespace Layout.Reader

open Text

variable {format : String} {s body length rest name : List Char} {l : Layout}

/-- A name without the characters that layouts are made with. -/
def Flat (name : List Char) : Prop := '<' ∉ name ∧ '>' ∉ name ∧ ',' ∉ name

instance (name : List Char) : Decidable (Flat name) := inferInstanceAs (Decidable (_ ∧ _ ∧ _))

theorem flat_nil : Flat [] := by simp [Flat]

theorem not_flat_iff : ¬Flat name ↔
    (name.any fun c => c == '<' || c == '>' || c == ',') = true := by
  simp only [Flat, List.any_eq_true, Bool.or_eq_true, beq_iff_eq]
  constructor
  · intro h
    by_contra hn
    push Not at hn
    exact h ⟨fun hc => (hn _ hc).1.1 rfl, fun hc => (hn _ hc).1.2 rfl, fun hc => (hn _ hc).2 rfl⟩
  · rintro ⟨c, hc, (rfl | rfl) | rfl⟩ ⟨h₁, h₂, h₃⟩
    · exact h₁ hc
    · exact h₂ hc
    · exact h₃ hc

theorem element_eq (format : String) (s : List Char) : element format s =
    if trim s = [] then .error (.malformedFormat format)
    else if Flat (trim s) then .ok (scalar (String.ofList (trim s)))
    else .error (.unsupportedFormat format) := by
  rw [element]
  split
  case h_1 h => rw [if_pos h]
  case h_2 h =>
    rw [if_neg h]
    by_cases hf : Flat (trim s)
    · rw [if_pos hf, if_neg fun ha => not_flat_iff.2 ha hf]
    · rw [if_neg hf, if_pos (not_flat_iff.1 hf)]

/-! ### The last number -/

/-- The last run of digits in a text, with what is in front of it and behind it. -/
structure IsLastRun (s front digits rest : List Char) : Prop where
  eq : s = front ++ (digits ++ rest)
  ne_nil : digits ≠ []
  digits : ∀ c ∈ digits, c.isDigit = true
  front : ∀ c ∈ front.getLast?, c.isDigit = false
  rest : ∀ c ∈ rest, c.isDigit = false

theorem exists_isLastRun (h : ∃ c ∈ s, c.isDigit = true) :
    ∃ front digits rest, IsLastRun s front digits rest := by
  -- read from the end: what is no digit, then the run
  obtain ⟨t, ht⟩ : ∃ t, t = s.reverse.dropWhile fun c => !c.isDigit := ⟨_, rfl⟩
  refine ⟨(t.dropWhile Char.isDigit).reverse, (t.takeWhile Char.isDigit).reverse,
    (s.reverse.takeWhile fun c => !c.isDigit).reverse, ?_, ?_, ?_, ?_, ?_⟩
  · rw [← List.append_assoc, ← List.reverse_append, List.takeWhile_append_dropWhile, ht,
      ← List.reverse_append, List.takeWhile_append_dropWhile, List.reverse_reverse]
  · have hne : t ≠ [] := by
      obtain ⟨c, hc, hdigit⟩ := h
      rw [ht, ne_eq, List.dropWhile_eq_nil_iff]
      intro hnone
      simpa [hdigit] using hnone c (List.mem_reverse.2 hc)
    have hstop : Stops (fun c => !c.isDigit) t := ht ▸ stops_dropWhile _ _
    obtain ⟨c, u, rfl⟩ := List.exists_cons_of_ne_nil hne
    have hdigit : c.isDigit = true := by simpa using stops_cons.1 hstop
    simp [hdigit]
  · intro c hc
    exact List.mem_takeWhile_imp (List.mem_reverse.1 hc)
  · intro c hc
    rw [List.getLast?_reverse] at hc
    exact stops_dropWhile _ _ c hc
  · intro c hc
    simpa using List.mem_takeWhile_imp (List.mem_reverse.1 hc)

theorem lengthIn_of_forall (h : ∀ c ∈ s, c.isDigit = false) : lengthIn s = .missing := by
  have hnil : s.reverse.dropWhile (fun c => !c.isDigit) = [] :=
    List.dropWhile_eq_nil_iff.2 fun c hc => by simp [h c (List.mem_reverse.1 hc)]
  simp [lengthIn, hnil]

/-- A character of several bytes in front of the last number splits it off. -/
theorem IsLastRun.lengthIn_eq {front digits rest : List Char} (h : IsLastRun s front digits rest) :
    lengthIn s = if ∀ c ∈ front.getLast?, c.toNat < 0x80 then .number (natOfDigits digits)
      else .split := by
  have hrun : ∀ c ∈ digits.reverse, c.isDigit = true := by simpa using h.digits
  have hstop : Stops Char.isDigit front.reverse := by
    intro c hc
    rw [List.head?_reverse] at hc
    exact h.front c hc
  have hskip : s.reverse.dropWhile (fun c => !c.isDigit) = digits.reverse ++ front.reverse := by
    rw [h.eq, ← List.append_assoc, List.reverse_append, List.reverse_append]
    refine dropWhile_append_of_stops (by simpa using h.rest) ?_
    obtain ⟨ds, d, rfl⟩ := (List.eq_nil_or_concat digits).resolve_left h.ne_nil
    simpa using h.digits d (by simp)
  rw [lengthIn]
  simp only [hskip, takeWhile_append_of_stops hrun hstop, dropWhile_append_of_stops hrun hstop]
  split
  case h_1 hnil => exact absurd (List.reverse_eq_nil_iff.1 hnil) h.ne_nil
  case h_2 =>
    rw [List.reverse_reverse]
    split
    case h_1 hnil => simp [List.reverse_eq_nil_iff.1 hnil]
    case h_2 c rest hc =>
      have hlast : front.getLast? = some c := by rw [← List.head?_reverse, hc, List.head?_cons]
      simp [hlast]

theorem fixedArray_of_not_mem (h : ',' ∉ body) :
    fixedArray format body = .error (.malformedFormat format) := by
  rw [fixedArray, if_pos (by simpa using h)]

theorem fixedArray_append (h : ',' ∉ length) (rest : List Char) :
    fixedArray format (length ++ ',' :: rest) =
      match lengthIn length with
      | .missing => .error (.malformedFormat format)
      | .split => .error (.splitCharacter format)
      | .number n =>
        if n = 0 ∨ UInt64.size ≤ n then .error (.malformedFormat format)
        else (element format (rest.rdropWhile isClosing)).map (.fixedArray n) := by
  rw [fixedArray, if_neg (by simp), takeWhile_ne_append h, dropWhile_ne_append h]
  cases lengthIn length <;> simp [List.rdropWhile]

/-- The text behind a marker gives `n` as the length of rows and `name` as what is in them. -/
def Announces (body : List Char) (n : Nat) (name : List Char) : Prop :=
  ∃ length rest, body = length ++ ',' :: rest ∧ ',' ∉ length ∧ lengthIn length = .number n ∧
    0 < n ∧ n < UInt64.size ∧ name = trim (rest.rdropWhile isClosing)

theorem fixedArray_of_announces {n : Nat} (h : Announces body n name) :
    fixedArray format body =
      if name = [] then .error (.malformedFormat format)
      else if Flat name then .ok (.fixedArray n (scalar (String.ofList name)))
      else .error (.unsupportedFormat format) := by
  obtain ⟨length, rest, rfl, hc, hlength, hpos, hsize, rfl⟩ := h
  rw [fixedArray_append hc, hlength]
  dsimp only
  rw [if_neg (by omega), element_eq]
  split
  · rfl
  · split <;> rfl

/-- Every other text is malformed, or its length starts inside a character. -/
theorem exists_announces (hm : fixedArray format body ≠ .error (.malformedFormat format))
    (hs : fixedArray format body ≠ .error (.splitCharacter format)) :
    ∃ n name, Announces body n name := by
  by_cases hc : ',' ∈ body
  · obtain ⟨length, rest, rfl, hlength⟩ := List.eq_append_cons_of_mem hc
    rw [fixedArray_append hlength] at hm hs
    cases hn : lengthIn length with
    | missing => simp [hn] at hm
    | split => simp [hn] at hs
    | number n =>
      by_cases hrange : n = 0 ∨ UInt64.size ≤ n
      · simp [hn, hrange] at hm
      · exact ⟨n, _, length, rest, rfl, hlength, hn, by omega, by omega, rfl⟩
  · exact absurd (fixedArray_of_not_mem hc) hm

/-- Rows are read where they are announced with the bare name of a type. -/
theorem fixedArray_eq_ok_iff : fixedArray format body = .ok l ↔
    ∃ n name, Announces body n name ∧ name ≠ [] ∧ Flat name ∧
      l = .fixedArray n (scalar (String.ofList name)) := by
  constructor
  · intro h
    have hm : fixedArray format body ≠ .error (.malformedFormat format) := by simp [h]
    have hs : fixedArray format body ≠ .error (.splitCharacter format) := by simp [h]
    obtain ⟨n, name, ha⟩ := exists_announces hm hs
    rw [fixedArray_of_announces ha] at h
    split at h
    · cases h
    split at h
    · cases h
      exact ⟨n, name, ha, by assumption, by assumption, rfl⟩
    · cases h
  · rintro ⟨n, name, ha, hne, hflat, rfl⟩
    rw [fixedArray_of_announces ha, if_neg hne, if_pos hflat]

/-- Rows are refused where they are announced with something else in them. -/
theorem fixedArray_eq_unsupported_iff :
    fixedArray format body = .error (.unsupportedFormat format) ↔
      ∃ n name, Announces body n name ∧ ¬Flat name := by
  constructor
  · intro h
    have hm : fixedArray format body ≠ .error (.malformedFormat format) := by simp [h]
    have hs : fixedArray format body ≠ .error (.splitCharacter format) := by simp [h]
    obtain ⟨n, name, ha⟩ := exists_announces hm hs
    rw [fixedArray_of_announces ha] at h
    split at h
    · cases h
    split at h
    · cases h
    · exact ⟨n, name, ha, by assumption⟩
  · rintro ⟨n, name, ha, hflat⟩
    have hne : name ≠ [] := by
      rintro rfl
      exact hflat flat_nil
    rw [fixedArray_of_announces ha, if_neg hne, if_neg hflat]

end Layout.Reader

namespace Layout

open Text

variable {format : String} {body : List Char}

def arrayMarker : List Char := "FixedArray<".toList

theorem trim_append_arrayMarker (s t : List Char) :
    trim (s ++ (arrayMarker ++ t)) = trimStart s ++ (arrayMarker ++ trimEnd t) := by
  have h : trimEnd ("ixedArray".toList ++ '<' :: t) = "ixedArray".toList ++ '<' :: trimEnd t :=
    trimEnd_append_cons (by decide)
  rw [show arrayMarker ++ t = 'F' :: ("ixedArray".toList ++ '<' :: t) from rfl,
    trim_append_cons (by decide), h]
  rfl

/-- Wherever a format has the marker of arrays, it is read by what follows the first one. -/
theorem parse_of_after? (h : after? arrayMarker (trim format.toList) = some body) :
    parse format = Reader.fixedArray format body := by
  obtain ⟨front, hs, -⟩ := after?_eq_some_iff.1 h
  have hmem : '<' ∈ trim format.toList := by
    rw [hs]
    exact List.mem_append_right _ (List.mem_append_left _ (by decide))
  rw [parse]
  split
  case h_1 hnil => simp [hnil] at hmem
  case h_2 =>
    rw [if_neg (by simpa using hmem)]
    rw [show "FixedArray<".toList = arrayMarker from rfl, h]

end Layout

end AudioFeatures
