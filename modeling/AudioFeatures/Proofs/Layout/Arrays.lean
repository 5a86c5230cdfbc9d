import AudioFeatures.Proofs.Layout.Reader

/-! # Spelled arrays

The name of an array may come with a name in front of it, a cast and a suffix around its length, and
brackets, stars and blanks that close it. None of this changes what is read: the length is the last
number in front of the comma and the type is what stands between the comma and the closing part.
-/

namespace AudioFeatures.Layout

open Text Reader

/-- The parts of the name of an array. -/
structure ArraySpelling where
  /-- What stands in front of the marker. -/
  front : List Char
  cast : List Char
  length : Nat
  /-- What stands between the length and the comma. -/
  suffix : List Char
  blanks : List Char
  typeName : List Char
  closing : List Char

namespace ArraySpelling

/-- What stands in front of the comma. -/
def lengthPart (a : ArraySpelling) : List Char :=
  a.cast ++ ((toString a.length).toList ++ a.suffix)

/-- What stands behind the comma. -/
def typePart (a : ArraySpelling) : List Char := a.blanks ++ a.typeName ++ a.closing

def text (a : ArraySpelling) : String :=
  String.ofList (a.front ++ (arrayMarker ++ (a.lengthPart ++ ',' :: a.typePart)))

structure WellFormed (a : ArraySpelling) : Prop where
  not_infix_front : ¬arrayMarker <:+: a.front
  not_mem_cast : ',' ∉ a.cast
  /-- The cast does not run into the length. -/
  cast_last : (a.cast.getLast?.all fun c => c.toNat < 0x80 && !c.isDigit) = true
  not_mem_suffix : ',' ∉ a.suffix
  suffix_digits : (a.suffix.all fun c => !c.isDigit) = true
  blanks : AllBlank a.blanks
  typeName_ne_nil : a.typeName ≠ []
  typeName_trimmed : IsTrimmed a.typeName
  typeName_flat : Flat a.typeName
  typeName_last : (a.typeName.getLast?.all fun c => c != ')' && c != '*') = true
  closing : a.closing.all isClosing = true

end ArraySpelling

variable {a : ArraySpelling} {cast digits suffix s : List Char}

namespace Reader

/-- The last number counts, whatever is in front of it and unless a character of several bytes
is. -/
theorem lengthIn_append (hdigits : digits ≠ []) (hd : ∀ c ∈ digits, c.isDigit = true)
    (hcast : ∀ c ∈ cast.getLast?, c.toNat < 0x80 ∧ c.isDigit = false)
    (hsuffix : ∀ c ∈ suffix, c.isDigit = false) :
    lengthIn (cast ++ (digits ++ suffix)) = .number (natOfDigits digits) := by
  have hrun : IsLastRun (cast ++ (digits ++ suffix)) cast digits suffix :=
    ⟨rfl, hdigits, hd, fun c hc => (hcast c hc).2, hsuffix⟩
  rw [hrun.lengthIn_eq, if_pos fun c hc => (hcast c hc).1]

theorem rdropWhile_isClosing_trimEnd (s : List Char) :
    (trimEnd s).rdropWhile isClosing = s.rdropWhile isClosing := by
  obtain ⟨b, hb, hs⟩ := exists_trimEnd_append s
  have hclosing : ∀ c ∈ b.reverse, isClosing c = true := fun c hc => by
    simp [isClosing, hb c (List.mem_reverse.1 hc)]
  conv_rhs => rw [hs, List.rdropWhile, List.reverse_append, List.dropWhile_append_of_pos hclosing]
  rfl

end Reader

namespace ArraySpelling

theorem WellFormed.after?_text (h : a.WellFormed) : after? arrayMarker (trim a.text.toList) =
    some (a.lengthPart ++ ',' :: trimEnd a.typePart) := by
  rw [text, String.toList_ofList, trim_append_arrayMarker, trimEnd_append_cons (by decide)]
  refine after?_append_of_not_infix (by decide) (fun hinside => h.not_infix_front ?_) _
  exact hinside.trans (isSuffix_trimStart a.front).isInfix

theorem WellFormed.not_mem_lengthPart (h : a.WellFormed) : ',' ∉ a.lengthPart := by
  intro hc
  rcases List.mem_append.1 hc with hc | hc
  · exact h.not_mem_cast hc
  · rcases List.mem_append.1 hc with hc | hc
    · rw [Nat.toString_eq_repr, Nat.toList_repr] at hc
      exact absurd (Nat.isDigit_of_mem_toDigits (by decide) (by decide) hc) (by decide)
    · exact h.not_mem_suffix hc

theorem WellFormed.lengthIn_lengthPart (h : a.WellFormed) :
    lengthIn a.lengthPart = .number a.length := by
  have hdigits : ∀ c ∈ Nat.toDigits 10 a.length, c.isDigit = true := fun c hc =>
    Nat.isDigit_of_mem_toDigits (by decide) (by decide) hc
  have hcast : ∀ c ∈ a.cast.getLast?, c.toNat < 0x80 ∧ c.isDigit = false := by
    simpa [Option.all_eq_true] using h.cast_last
  have hsuffix : ∀ c ∈ a.suffix, c.isDigit = false := by simpa using h.suffix_digits
  rw [lengthPart, Nat.toString_eq_repr, Nat.toList_repr,
    lengthIn_append Nat.toDigits_ne_nil hdigits hcast hsuffix, natOfDigits_toDigits]

theorem WellFormed.not_isClosing_of_mem_getLast? (h : a.WellFormed) :
    ∀ c ∈ a.typeName.getLast?, isClosing c = false := by
  intro c hc
  have hbracket : c ≠ '>' := by
    rintro rfl
    exact h.typeName_flat.2.1 (List.mem_of_getLast? hc)
  have hblank : isBlank c = false :=
    h.typeName_trimmed.stops_reverse c (by rwa [List.head?_reverse])
  have hother : c ≠ ')' ∧ c ≠ '*' := by
    have hall := h.typeName_last
    rw [Option.mem_def.1 hc] at hall
    simpa using hall
  simp [isClosing, hbracket, hother, hblank]

theorem WellFormed.trim_typePart (h : a.WellFormed) :
    trim ((trimEnd a.typePart).rdropWhile isClosing) = a.typeName := by
  have hclosing : ∀ c ∈ a.closing, isClosing c = true := by simpa using h.closing
  have hstop : Stops isClosing (a.blanks ++ a.typeName).reverse := by
    intro c hc
    rw [List.head?_reverse, List.getLast?_append_of_ne_nil _ h.typeName_ne_nil] at hc
    exact h.not_isClosing_of_mem_getLast? c hc
  rw [rdropWhile_isClosing_trimEnd, typePart, rdropWhile_append_of_stops hstop hclosing,
    trim_append_of_allBlank h.blanks, h.typeName_trimmed]

end ArraySpelling

/-- Rows are read from every spelling of an array whose length a word can hold; a length of zero and
every greater one are malformed. -/
theorem parse_spelling (h : a.WellFormed) : parse a.text =
    if a.length = 0 ∨ UInt64.size ≤ a.length then .error (.malformedFormat a.text)
    else .ok (.fixedArray a.length (.scalar (String.ofList a.typeName))) := by
  rw [parse_of_after? (h.after?_text),
    fixedArray_append (h.not_mem_lengthPart), h.lengthIn_lengthPart]
  dsimp only
  rw [element_eq, h.trim_typePart, if_neg h.typeName_ne_nil, if_pos h.typeName_flat]
  rfl

/-- A name in front, a cast with digits of its own, a suffix and a mixed closing part. -/
def ArraySpelling.shorts : ArraySpelling where
  front := " fmt::ArrayFormat<".toList
  cast := "(uint32_t)".toList
  length := 4
  suffix := "ul".toList
  blanks := " ".toList
  typeName := "unsigned short".toList
  closing := "> )* ".toList

theorem parse_spelling_shorts : ArraySpelling.shorts.WellFormed ∧
    parse " fmt::ArrayFormat<FixedArray<(uint32_t)4ul, unsigned short> )* " =
      .ok (.fixedArray 4 (.scalar "unsigned short")) := by
  have h : ArraySpelling.shorts.WellFormed := {
    not_infix_front := by decide
    not_mem_cast := by decide
    cast_last := by decide
    not_mem_suffix := by decide
    suffix_digits := by decide
    blanks := by decide
    typeName_ne_nil := by decide
    typeName_trimmed := by decide
    typeName_flat := by decide
    typeName_last := by decide
    closing := by decide }
  have htext : ArraySpelling.shorts.text =
      " fmt::ArrayFormat<FixedArray<(uint32_t)4ul, unsigned short> )* " := by decide
  have hparse := parse_spelling h
  rw [htext, if_neg (by decide)] at hparse
  exact ⟨h, hparse⟩

end AudioFeatures.Layout
