import AudioFeatures.Proofs.Layout.Arrays

/-! # Printed layouts

A layout that was read is read back from its printed form, unless it came from the name of a pointer
to a pointer. Of the two stars of such a name only the last one is dropped, so the printed form is
the name of a pointer again and is read as something else.
-/

namespace AudioFeatures.Layout

open Text Reader

variable {format : String} {l : Layout} {n : Nat} {name s blanks : List Char}

/-! ## Stars -/

namespace Reader

@[simp] theorem dropStar_concat (s : List Char) : dropStar (s ++ ['*']) = s := by
  simp [dropStar]

theorem dropStar_of_getLast?_ne (h : s.getLast? ≠ some '*') : dropStar s = s := by
  simp [dropStar, h]

theorem isPrefix_dropStar (s : List Char) : dropStar s <+: s := by
  rw [dropStar]
  split
  · exact List.dropLast_prefix s
  · exact List.prefix_rfl

theorem dropStar_cases (s : List Char) :
    (∃ t, s = t ++ ['*'] ∧ dropStar s = t) ∨ s.getLast? ≠ some '*' ∧ dropStar s = s := by
  by_cases h : s.getLast? = some '*'
  · obtain ⟨t, rfl⟩ := List.getLast?_eq_some_iff.1 h
    exact .inl ⟨t, rfl, dropStar_concat t⟩
  · exact .inr ⟨h, dropStar_of_getLast?_ne h⟩

end Reader

/-! ## What formats name -/

/-- The name of a type as it can stand in a layout with brackets. -/
structure IsElement (name : List Char) : Prop where
  ne_nil : name ≠ []
  trimmed : IsTrimmed name
  flat : Flat name

/-- The layouts that can be read. -/
inductive Named : Layout → Prop
  | scalar (name : List Char) : name ≠ [] → IsTrimmed name → '<' ∉ name →
      Named (.scalar (String.ofList name))
  | fixedArray (n : Nat) (name : List Char) : 0 < n → n < UInt64.size → IsElement name →
      Stops isClosing name.reverse → Named (.fixedArray n (.scalar (String.ofList name)))
  | window (name : List Char) : IsElement name → Named (.window (.scalar (String.ofList name)))

theorem element_eq_ok_iff : element format s = .ok l ↔
    IsElement (trim s) ∧ l = .scalar (String.ofList (trim s)) := by
  rw [element_eq]
  by_cases hne : trim s = []
  · simp [hne, show ¬IsElement [] from fun h => h.ne_nil rfl]
  · by_cases hflat : Flat (trim s)
    · have helement : IsElement (trim s) := ⟨hne, isTrimmed_trim s, hflat⟩
      simp [hne, hflat, helement, eq_comm]
    · simp [hne, hflat, show ¬IsElement (trim s) from fun h => hflat h.flat]

/-- Without a bracket, what is left of a format when blanks and a star are dropped names a type. -/
theorem parse_of_not_mem (h : '<' ∉ trim format.toList) : parse format =
    if trimEnd (dropStar (trim format.toList)) = [] then .error (.malformedFormat format)
    else .ok (.scalar (String.ofList (trimEnd (dropStar (trim format.toList))))) := by
  rw [parse]
  split
  case h_1 hnil => rw [hnil, if_pos (by decide)]
  case h_2 =>
    rw [if_pos (by simpa using h)]
    split
    · rw [if_pos ‹_›]
    case h_2 hne => rw [if_neg hne]

def windowMarker : List Char := "Window<".toList

/-- A window takes up the whole format, and it has no array in it. -/
theorem parse_of_window (h : ¬arrayMarker <:+: trim format.toList)
    (hs : trim format.toList = windowMarker ++ s) : parse format = Reader.window format s := by
  have hmem : '<' ∈ trim format.toList := hs ▸ List.mem_append_left _ (by decide)
  have hwindow : "Window<".toList.isPrefixOf (trim format.toList) = true := by
    rw [hs, List.isPrefixOf_iff_prefix]
    exact List.prefix_append _ _
  have hdrop : (trim format.toList).drop "Window<".length = s := by
    rw [hs]
    exact List.drop_left
  rw [parse]
  split
  case h_1 hnil => simp [hnil] at hmem
  case h_2 =>
    rw [if_neg (by simpa using hmem), show "FixedArray<".toList = arrayMarker from rfl,
      after?_eq_none_iff.2 h]
    dsimp only
    rw [if_pos hwindow, hdrop]

/-- What is left of a text when closing characters are dropped does not end with one, trimmed or
not. -/
theorem stops_isClosing_trim (s : List Char) :
    Stops isClosing (trim (s.rdropWhile isClosing)).reverse := by
  have hclosing : Stops isClosing (s.rdropWhile isClosing).reverse := by
    rw [List.rdropWhile, List.reverse_reverse]
    exact stops_dropWhile _ _
  have hstart := stops_reverse_of_isSuffix hclosing (isSuffix_trimStart _)
  have hblank : Stops isBlank (trimStart (s.rdropWhile isClosing)).reverse := by
    intro c hc
    have h := hstart c hc
    simp only [isClosing, Bool.or_eq_false_iff] at h
    exact h.2
  rwa [trim, trimEnd_of_stops hblank]

theorem named_of_fixedArray (h : Reader.fixedArray format s = .ok l) : Named l := by
  obtain ⟨n, name, ha, hne, hflat, rfl⟩ := fixedArray_eq_ok_iff.1 h
  obtain ⟨length, rest, -, -, -, hpos, hsize, rfl⟩ := ha
  exact .fixedArray _ _ hpos hsize ⟨hne, isTrimmed_trim _, hflat⟩ (stops_isClosing_trim _)

theorem window_eq_ok_iff : Reader.window format s = .ok l ↔ ∃ name, s = name ++ ['>'] ∧
    IsElement (trim name) ∧ l = .window (.scalar (String.ofList (trim name))) := by
  rw [Reader.window]
  constructor
  · intro h
    split at h
    case isTrue hlast =>
      obtain ⟨name, rfl⟩ := List.getLast?_eq_some_iff.1 (beq_iff_eq.1 hlast)
      obtain ⟨l', hl', rfl⟩ := map_eq_ok_iff.1 h
      rw [List.dropLast_concat, element_eq_ok_iff] at hl'
      exact ⟨name, rfl, hl'.1, by rw [hl'.2]⟩
    case isFalse => cases h
  · rintro ⟨name, rfl, hname, rfl⟩
    rw [if_pos (by simp), List.dropLast_concat, map_eq_ok_iff]
    exact ⟨_, element_eq_ok_iff.2 ⟨hname, rfl⟩, rfl⟩

/-- A format is read as the name of a type, as an array or as a window. -/
theorem parse_eq_ok_cases (h : parse format = .ok l) :
    ('<' ∉ trim format.toList ∧ trimEnd (dropStar (trim format.toList)) ≠ [] ∧
      l = .scalar (String.ofList (trimEnd (dropStar (trim format.toList))))) ∨
    (∃ s, Reader.fixedArray format s = .ok l) ∨ ∃ s, Reader.window format s = .ok l := by
  by_cases hmem : '<' ∈ trim format.toList
  · refine .inr ?_
    rw [parse] at h
    split at h
    · cases h
    rw [if_neg (by simpa using hmem)] at h
    split at h
    · exact .inl ⟨_, h⟩
    split at h
    · exact .inr ⟨_, h⟩
    · split at h <;> cases h
  · refine .inl ⟨hmem, ?_⟩
    rw [parse_of_not_mem hmem] at h
    split at h
    · cases h
    case isFalse hne =>
      cases h
      exact ⟨hne, rfl⟩

theorem named_of_parse (h : parse format = .ok l) : Named l := by
  rcases parse_eq_ok_cases h with ⟨hmem, hne, rfl⟩ | ⟨s, h⟩ | ⟨s, h⟩
  · have hfront : trimEnd (dropStar (trim format.toList)) <+: trim format.toList :=
      (isPrefix_trimEnd _).trans (isPrefix_dropStar _)
    refine .scalar _ hne (isTrimmed_of_stops ?_ (stops_reverse_trimEnd _)) ?_
    · exact stops_of_isPrefix (isTrimmed_trim _).stops hfront
    · exact fun hmem' => hmem (hfront.subset hmem')
  · exact named_of_fixedArray h
  · obtain ⟨name, -, hname, rfl⟩ := window_eq_ok_iff.1 h
    exact .window _ hname

/-! ## Reading what was printed -/

theorem toList_text_fixedArray (n : Nat) (name : List Char) :
    (fixedArray n (.scalar (String.ofList name))).text.toList =
      arrayMarker ++ (Nat.toDigits 10 n ++ ',' :: ' ' :: (name ++ ['>'])) := by
  have h : (fixedArray n (.scalar (String.ofList name))).text =
      "FixedArray<" ++ toString n ++ ", " ++ String.ofList name ++ ">" := rfl
  rw [h]
  simp only [String.toList_append, String.toList_ofList, Nat.toString_eq_repr, Nat.toList_repr,
    List.append_assoc]
  rfl

theorem toList_text_window (name : List Char) :
    (window (.scalar (String.ofList name))).text.toList = windowMarker ++ (name ++ ['>']) := by
  have h : (window (.scalar (String.ofList name))).text =
      "Window<" ++ String.ofList name ++ ">" := rfl
  rw [h]
  simp only [String.toList_append, String.toList_ofList, List.append_assoc]
  rfl

/-- A text between a letter and a bracket is trimmed. -/
theorem isTrimmed_bracketed {c : Char} (hc : isBlank c = false) (s : List Char) :
    IsTrimmed (c :: (s ++ ['>'])) := by
  refine isTrimmed_of_stops (stops_cons.2 hc) ?_
  rw [← List.cons_append, List.reverse_append]
  exact stops_cons.2 (by decide)

theorem parse_text_fixedArray (hpos : 0 < n) (hsize : n < UInt64.size) (hname : IsElement name)
    (hlast : Stops isClosing name.reverse) :
    parse (fixedArray n (.scalar (String.ofList name))).text =
      .ok (.fixedArray n (.scalar (String.ofList name))) := by
  have hdigits : ∀ c ∈ Nat.toDigits 10 n, c.isDigit = true := fun c hc =>
    Nat.isDigit_of_mem_toDigits (by decide) (by decide) hc
  have htrimmed : IsTrimmed
      (arrayMarker ++ (Nat.toDigits 10 n ++ ',' :: ' ' :: (name ++ ['>']))) := by
    have h := isTrimmed_bracketed (c := 'F') (by decide)
      ("ixedArray<".toList ++ (Nat.toDigits 10 n ++ ',' :: ' ' :: name))
    rw [List.append_assoc, List.append_assoc] at h
    exact h
  have hannounces : Announces (Nat.toDigits 10 n ++ ',' :: ' ' :: (name ++ ['>'])) n name := by
    refine ⟨_, _, rfl, fun hc => absurd (hdigits _ hc) (by decide), ?_, hpos, hsize, ?_⟩
    · have h : lengthIn ([] ++ (Nat.toDigits 10 n ++ [])) = _ :=
        lengthIn_append Nat.toDigits_ne_nil hdigits nofun nofun
      rwa [List.nil_append, List.append_nil, natOfDigits_toDigits] at h
    · have hstop : Stops isClosing (' ' :: name).reverse := by
        rw [List.reverse_cons]
        exact (stops_append_of_ne_nil (by simpa using hname.ne_nil)).2 hlast
      have hclosing : ∀ c ∈ ['>'], isClosing c = true := by simp [isClosing]
      have hblank : AllBlank [' '] := by decide
      rw [← List.cons_append, rdropWhile_append_of_stops hstop hclosing, ← List.singleton_append,
        trim_append_of_allBlank hblank, hname.trimmed]
  have hafter : after? arrayMarker
      (trim (fixedArray n (.scalar (String.ofList name))).text.toList) =
        some (Nat.toDigits 10 n ++ ',' :: ' ' :: (name ++ ['>'])) := by
    rw [toList_text_fixedArray, htrimmed, after?_append]
  rw [parse_of_after? hafter, fixedArray_eq_ok_iff]
  exact ⟨n, name, hannounces, hname.ne_nil, hname.flat, rfl⟩

/-- The one opening bracket of a window does not end the marker of arrays. -/
theorem not_infix_windowMarker (h : '<' ∉ s) : ¬arrayMarker <:+: windowMarker ++ s := by
  rintro ⟨front, rest, heq⟩
  have hs : front ++ "FixedArray".toList ++ '<' :: rest = "Window".toList ++ '<' :: s := by
    rw [List.append_assoc] at heq ⊢
    exact heq
  have hfront : '<' ∉ front ++ "FixedArray".toList := by
    intro hmem
    have hpos := List.count_pos_iff.2 hmem
    have hcount := congrArg (List.count '<') hs
    have hwindow : List.count '<' "Window".toList = 0 := by decide
    simp only [List.count_append] at hpos hcount
    rw [hwindow, List.count_cons_self, List.count_cons_self, List.count_eq_zero_of_not_mem h]
      at hcount
    omega
  have hlength := congrArg List.length (congrArg (List.takeWhile (· != '<')) hs)
  rw [takeWhile_ne_append hfront, takeWhile_ne_append (by decide), List.length_append] at hlength
  exact absurd hlength (Nat.ne_of_gt (Nat.lt_add_left _ (by decide)))

theorem parse_text_window (hname : IsElement name) :
    parse (window (.scalar (String.ofList name))).text =
      .ok (.window (.scalar (String.ofList name))) := by
  have htrim : trim (window (.scalar (String.ofList name))).text.toList =
      windowMarker ++ (name ++ ['>']) := by
    rw [toList_text_window]
    exact isTrimmed_bracketed (c := 'W') (by decide) ("indow<".toList ++ name)
  have hmem : '<' ∉ name ++ ['>'] := by simpa using hname.flat.1
  rw [parse_of_window (htrim.symm ▸ not_infix_windowMarker hmem) htrim, window_eq_ok_iff]
  exact ⟨name, rfl, hname.trimmed.symm ▸ hname, by rw [hname.trimmed]⟩

theorem parse_text_scalar (htrimmed : IsTrimmed name) (hmem : '<' ∉ name) :
    parse (scalar (String.ofList name)).text =
      if trimEnd (dropStar name) = [] then .error (.malformedFormat (String.ofList name))
      else .ok (.scalar (String.ofList (trimEnd (dropStar name)))) := by
  have htrim : trim (String.ofList name).toList = name := by rw [String.toList_ofList, htrimmed]
  rw [text, parse_of_not_mem (htrim.symm ▸ hmem), htrim]

/-! ## Names of pointers to pointers -/

/-- The format is the name of a type with two stars behind it, and maybe blanks between them. -/
def EndsInStars (format : String) : Prop :=
  '<' ∉ format.toList ∧ ∃ front blanks, AllBlank blanks ∧
    trim format.toList = front ++ '*' :: (blanks ++ ['*'])

/-- Of two stars one is left over. -/
theorem parse_of_endsInStars (h : EndsInStars format) :
    ∃ front, parse format = .ok (.scalar (String.ofList (front ++ ['*']))) := by
  obtain ⟨hmem, front, blanks, hblanks, htrim⟩ := h
  have hname : trimEnd (dropStar (trim format.toList)) = front ++ ['*'] := by
    rw [htrim, ← List.cons_append, ← List.append_assoc, dropStar_concat,
      trimEnd_append_cons (by decide), ← List.nil_append blanks, trimEnd_append_of_allBlank hblanks]
    rfl
  refine ⟨front, ?_⟩
  rw [parse_of_not_mem fun hmem' => hmem (mem_of_mem_trim hmem'), hname, if_neg (by simp)]

theorem endsInStars_of_parse {front : List Char}
    (h : parse format = .ok (.scalar (String.ofList (front ++ ['*'])))) : EndsInStars format := by
  rcases parse_eq_ok_cases h with ⟨hmem, hne, hl⟩ | ⟨s, h⟩ | ⟨s, h⟩
  · have hname : trimEnd (dropStar (trim format.toList)) = front ++ ['*'] :=
      String.ofList_injective (Layout.scalar.inj hl).symm
    refine ⟨fun hmem' => hmem ((mem_trim_iff (by decide)).2 hmem'), front, ?_⟩
    rcases dropStar_cases (trim format.toList) with ⟨t, ht, hdrop⟩ | ⟨hlast, hdrop⟩
    · obtain ⟨blanks, hblanks, hs⟩ := exists_trimEnd_append t
      refine ⟨blanks, hblanks, ?_⟩
      rw [hdrop] at hname
      rw [ht, hs, hname]
      simp
    · rw [hdrop, trimEnd_of_stops (isTrimmed_trim _).stops_reverse] at hname
      exact absurd (by simp [hname]) hlast
  · obtain ⟨n, name, -, -, -, hl⟩ := fixedArray_eq_ok_iff.1 h
    cases hl
  · obtain ⟨name, -, -, hl⟩ := window_eq_ok_iff.1 h
    cases hl

theorem Named.parse_text_eq (hl : Named l)
    (hstar : ∀ front, l ≠ .scalar (String.ofList (front ++ ['*']))) : parse l.text = .ok l := by
  cases hl with
  | scalar name hne htrimmed hmem =>
    have hlast : name.getLast? ≠ some '*' := by
      intro hlast
      obtain ⟨front, rfl⟩ := List.getLast?_eq_some_iff.1 hlast
      exact hstar front rfl
    rw [parse_text_scalar htrimmed hmem, dropStar_of_getLast?_ne hlast,
      trimEnd_of_stops htrimmed.stops_reverse, if_neg hne]
  | fixedArray n name hpos hsize hname hlast => exact parse_text_fixedArray hpos hsize hname hlast
  | window name hname => exact parse_text_window hname

theorem parse_text_of_star {front : List Char}
    (hl : Named (.scalar (String.ofList (front ++ ['*'])))) :
    parse (scalar (String.ofList (front ++ ['*']))).text =
      if trimEnd front = [] then .error (.malformedFormat (String.ofList (front ++ ['*'])))
      else .ok (.scalar (String.ofList (trimEnd front))) := by
  generalize hname : String.ofList (front ++ ['*']) = name at hl
  cases hl with
  | scalar s hne htrimmed hmem =>
    obtain rfl := String.ofList_injective hname
    rw [parse_text_scalar htrimmed hmem, dropStar_concat]

theorem trimEnd_ne_append_singleton (s : List Char) (c : Char) : trimEnd s ≠ s ++ [c] := by
  intro h
  have hlength := (isPrefix_trimEnd s).length_le
  rw [h, List.length_append, List.length_singleton] at hlength
  omega

/-- The printed form is read as the layout again, unless it is the name of a pointer; what is read
then has one star less. -/
theorem parse_text_eq_ok_iff (h : parse format = .ok l) :
    (parse l.text = .ok l ↔ ¬EndsInStars format) ∧
    (EndsInStars format → ∃ front, l = .scalar (String.ofList (front ++ ['*'])) ∧
      parse l.text = if trimEnd front = [] then .error (.malformedFormat l.text)
        else .ok (.scalar (String.ofList (trimEnd front)))) := by
  have hl := named_of_parse h
  by_cases hstars : EndsInStars format
  · obtain ⟨front, hfront⟩ := parse_of_endsInStars hstars
    cases h.symm.trans hfront
    have hagain := parse_text_of_star hl
    refine ⟨iff_of_false (fun htext => ?_) (not_not_intro hstars), fun _ => ⟨front, rfl, hagain⟩⟩
    rw [hagain] at htext
    split at htext
    · cases htext
    · have hname := String.ofList_injective (Layout.scalar.inj (Except.ok.inj htext))
      exact trimEnd_ne_append_singleton front '*' hname
  · refine ⟨iff_of_true (hl.parse_text_eq ?_) hstars, fun h => absurd h hstars⟩
    rintro front rfl
    exact hstars (endsInStars_of_parse h)

/-- An array comes back although its format is a pointer to something that holds it. -/
theorem parse_text_eq_ok_iff_nested :
    parse "ArrayFormat<FixedArray<(unsigned long)16, short*>>*" =
        .ok (.fixedArray 16 (.scalar "short")) ∧
      parse (fixedArray 16 (.scalar "short")).text = .ok (.fixedArray 16 (.scalar "short")) := by
  have h : parse "ArrayFormat<FixedArray<(unsigned long)16, short*>>*" =
      .ok (.fixedArray 16 (.scalar "short")) := by cbv
  refine ⟨h, (parse_text_eq_ok_iff h).1.2 fun hstars => ?_⟩
  exact absurd hstars.1 (by decide)

/-- A pointer to a pointer is read as a pointer, and that is read as what it points to. -/
theorem parse_text_ne :
    parse "short**" = .ok (.scalar "short*") ∧
      parse (scalar "short*").text = .ok (.scalar "short") :=
  ⟨by cbv, by cbv⟩

end AudioFeatures.Layout
