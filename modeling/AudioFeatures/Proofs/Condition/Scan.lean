import AudioFeatures.Proofs.Condition.Spacing
import AudioFeatures.Proofs.Text.ByteRuns

/-! # Tokens read by byte index

A condition is read in passes that go along its bytes, each byte taken for a character, and that
divide the text at byte offsets. A pass starts between two characters and moves on by characters
of ASCII only, so it ends between two characters again.
-/

namespace AudioFeatures.Condition

open Text
open Lexer (isNumberPart isWordStart isWordPart number?)
open String (utf8Len)

variable {condition : String} {i j n fuel : Nat} {c : Char} {front rest : List Char} {t : Token}

namespace Scan

/-- The spellings in the order in which they are tried. -/
def operators : List (String × Token) :=
  Symbol.spellings.map (fun e => (e.1, .symbol e.2)) ++ [("(", .opening), (")", .closing)]

/-- Where the run of bytes of a class ends that starts at an index. -/
def runEnd (p : Char → Bool) (bytes : List Char) (i : Nat) : Nat :=
  i + ((bytes.drop i).takeWhile p).length

/-- One pass from an index: the token that it reads, if it does not stand at a blank, and the index
of the next pass. There is none behind the last byte, and none that divides the text at an offset
where the text cannot be divided. -/
def pass (condition : String) (i : Nat) : Option (Except Fault (Option Token × Nat)) := do
  let bytes := byteChars condition.toList
  let c ← bytes[i]?
  if isAsciiBlank c then return .ok (none, i + 1)
  else if c.isDigit || (c == '.' && bytes[i + 1]?.any Char.isDigit) then
    let stop := runEnd isNumberPart bytes i
    let literal ← slice? condition.toList i stop
    match number? literal with
    | some t => return .ok (some t, stop)
    | none => return .error (.badNumber (String.ofList literal))
  else if isWordStart c then
    let stop := runEnd isWordPart bytes i
    let name ← slice? condition.toList i stop
    return .ok (some (.word (String.ofList name)), stop)
  else
    let (_, rest) ← splitAt? condition.toList i
    match operators.find? fun e => e.1.toList.isPrefixOf rest with
    | some (spelling, t) => return .ok (some t, i + Utf8.size spelling)
    | none => return .error (.unexpectedCharacter c i)

/-- The indices at which a pass starts or the last one ends. -/
inductive Reached (condition : String) : Nat → Prop
  | start : Reached condition 0
  | next {i j : Nat} {t : Option Token} : Reached condition i →
      pass condition i = some (.ok (t, j)) → Reached condition j

/-- The tokens of the passes from an index on. There are none if a pass halts or the fuel ends. -/
def passes (condition : String) : Nat → Nat → Option (Except Fault (List Token))
  | 0, _ => none
  | fuel + 1, i =>
    if i < Utf8.size condition then
      match pass condition i with
      | none => none
      | some (.error e) => some (.error e)
      | some (.ok (t, j)) => (passes condition fuel j).map fun r => r.map (t.toList ++ ·)
    else some (.ok [])

end Scan

namespace Lexer

/-! ## The first byte of a character -/

theorem head?_byteChars (c : Char) (s : List Char) :
    (byteChars (c :: s)).head? = some (lead c) := by
  obtain ⟨b, more, hbytes⟩ : ∃ b more, String.utf8EncodeChar c = b :: more := by
    refine List.exists_cons_of_ne_nil fun hnil => ?_
    have hlength := String.length_utf8EncodeChar c
    rw [hnil] at hlength
    exact c.utf8Size_pos.ne hlength
  simp [byteChars, lead, hbytes]

theorem apply_lead {p : Char → Bool} (hp : IsAsciiClass p) (c : Char) : p (lead c) = p c := by
  simpa [head?_byteChars] using hp.any_head?_byteChars [c]

theorem isAsciiClass_isNumberPart : IsAsciiClass isNumberPart :=
  isAsciiClass_isDigit.or (isAsciiClass_eq (by decide))

theorem isAsciiClass_isWordStart : IsAsciiClass isWordStart :=
  isAsciiClass_isAlpha.or (isAsciiClass_eq (by decide))

theorem isAsciiClass_isWordPart : IsAsciiClass isWordPart :=
  (isAsciiClass_isAlpha.or isAsciiClass_isDigit).or (isAsciiClass_eq (by decide))

theorem isAscii_spellings : ∀ e ∈ Symbol.spellings, IsAscii e.1.toList := by
  simp [Symbol.spellings, IsAscii]

theorem size_spelling {e : String × Symbol} (he : e ∈ Symbol.spellings) :
    Utf8.size e.1 = e.1.length - 1 + 1 := by
  have hpos := (spellings_short e he).1
  rw [String.length_toList] at hpos
  rw [size_eq_utf8Len, utf8Len_of_isAscii (isAscii_spellings e he), String.length_toList,
    Nat.sub_add_cancel hpos]

theorem isNumberPart_of_startsNumber (h : startsNumber c rest = true) : isNumberPart c = true := by
  rw [startsNumber, Bool.or_eq_true, Bool.and_eq_true] at h
  rw [isNumberPart, Bool.or_eq_true]
  exact h.imp_right And.left

theorem isWordPart_of_isWordStart (h : isWordStart c = true) : isWordPart c = true := by
  rw [isWordStart, Bool.or_eq_true] at h
  rw [isWordPart, Char.isAlphanum, Bool.or_eq_true, Bool.or_eq_true]
  exact h.imp_left .inl

theorem isAscii_run {p : Char → Bool} (hp : IsAsciiClass p) (hc : p c = true) :
    IsAscii (c :: rest.take (rest.takeWhile p).length) := by
  rw [← List.prefix_iff_eq_take.1 (List.takeWhile_prefix p), ← List.takeWhile_cons_of_pos hc]
  exact hp.isAscii_takeWhile _

/-- A token is made of single bytes. -/
theorem Starts.isAscii (h : Starts c rest t n) : IsAscii (c :: rest.take n) := by
  cases h with
  | number hstart =>
    exact isAscii_run isAsciiClass_isNumberPart (isNumberPart_of_startsNumber hstart)
  | word _ hc => exact isAscii_run isAsciiClass_isWordPart (isWordPart_of_isWordStart hc)
  | opening hc =>
    subst hc
    simp [IsAscii]
  | closing hc =>
    subst hc
    simp [IsAscii]
  | @symbol spelling x _ _ _ _ hsymbol =>
    have hmem : (spelling, x) ∈ Symbol.spellings := List.mem_of_find?_eq_some hsymbol
    have hprefix := (symbol?_eq_some_iff.1 hsymbol).1
    have hpos := (spellings_short (spelling, x) hmem).1
    rw [← List.take_succ_cons, ← String.length_toList, Nat.sub_add_cancel hpos,
      ← List.prefix_iff_eq_take.1 hprefix]
    exact isAscii_spellings (spelling, x) hmem

theorem utf8Len_of_isAsciiBlank (hc : isAsciiBlank c = true) : utf8Len [c] = 1 :=
  utf8Len_of_isAscii (List.forall_mem_singleton.2 (isAsciiClass_isAsciiBlank c hc))

theorem utf8Len_of_token (h : token i c rest = .ok (t, n)) :
    utf8Len (c :: rest.take n) = n + 1 := by
  have hstarts := starts_of_token h
  rw [utf8Len_of_isAscii hstarts.isAscii, List.length_cons,
    List.length_take_of_le hstarts.length_le]

end Lexer

open Lexer

namespace Scan

/-! ## One pass -/

/-- The parentheses may be tried first, because they are spelled like no symbol. -/
theorem find?_operators (c : Char) (rest : List Char) :
    operators.find? (fun e => e.1.toList.isPrefixOf (c :: rest)) =
      if c == '(' then some ("(", .opening)
      else if c == ')' then some (")", .closing)
      else (symbol? (c :: rest)).map fun e => (e.1, .symbol e.2) := by
  by_cases ho : c = '('
  · subst ho
    simp [operators, Symbol.spellings]
  by_cases hc : c = ')'
  · subst hc
    simp [operators, Symbol.spellings]
  have hparens : [("(", Token.opening), (")", .closing)].find?
      (fun e => e.1.toList.isPrefixOf (c :: rest)) = none := by
    simp [Ne.symm ho, Ne.symm hc]
  rw [if_neg (by simpa using ho), if_neg (by simpa using hc), operators, List.find?_append,
    List.find?_map, hparens, Option.or_none]
  rfl

theorem runEnd_byteChars {p : Char → Bool} (hp : IsAsciiClass p) (s t : List Char) :
    runEnd p (byteChars (s ++ t)) (utf8Len s) = utf8Len s + (t.takeWhile p).length := by
  rw [runEnd, drop_byteChars, hp.takeWhile_byteChars]

/-- The bytes tell where a number starts. -/
theorem startsNumber_byteChars (front : List Char) (c : Char) (rest : List Char) :
    ((lead c).isDigit || (lead c == '.' &&
      (byteChars (front ++ c :: rest))[utf8Len front + 1]?.any Char.isDigit)) =
    startsNumber c rest := by
  have hpoint : (lead c == '.') = (c == '.') := apply_lead (isAsciiClass_eq (by decide)) c
  have hany : (rest.head?.map Char.isDigit).getD false = rest.head?.any Char.isDigit := by
    cases rest <;> rfl
  rw [startsNumber, apply_lead isAsciiClass_isDigit, hpoint, hany]
  by_cases hc : c = '.'
  · subst hc
    have hindex : utf8Len front + 1 = utf8Len (front ++ ['.']) := by
      rw [String.utf8Len_append]
      rfl
    rw [List.append_cons, hindex, getElem?_byteChars, isAsciiClass_isDigit.any_head?_byteChars]
  · rw [beq_false_of_ne hc, Bool.false_and, Bool.false_and]

/-- Where a character starts, a pass reads the same token as the lexer does, and goes on as many
bytes behind it as the token has characters. -/
theorem pass_at (h : condition.toList = front ++ c :: rest) :
    pass condition (utf8Len front) = some
      (if isAsciiBlank c then .ok (none, utf8Len front + 1)
      else (token (utf8Len front) c rest).map fun r => (some r.1, utf8Len front + (r.2 + 1))) := by
  have hbyte : (byteChars condition.toList)[utf8Len front]? = some (lead c) := by
    rw [h, getElem?_byteChars, head?_byteChars]
  have hsplit : splitAt? condition.toList (utf8Len front) = some (front, c :: rest) := by
    rw [h, splitAt?_utf8Len]
  simp only [Scan.pass, hbyte, Option.bind_eq_bind, Option.bind_some,
    apply_lead isAsciiClass_isAsciiBlank, apply_lead isAsciiClass_isWordStart, hsplit]
  rw [h, startsNumber_byteChars, token_eq]
  by_cases hblank : isAsciiBlank c = true
  · rw [if_pos hblank, if_pos hblank]
    rfl
  rw [if_neg hblank, if_neg hblank]
  by_cases hnumber : startsNumber c rest = true
  · rw [if_pos hnumber, if_pos hnumber, runEnd_byteChars isAsciiClass_isNumberPart,
      slice?_takeWhile isAsciiClass_isNumberPart, Option.bind_some,
      List.takeWhile_cons_of_pos (isNumberPart_of_startsNumber hnumber)]
    cases number? (c :: rest.takeWhile isNumberPart) <;> rfl
  rw [if_neg hnumber, if_neg hnumber]
  by_cases hword : isWordStart c = true
  · rw [if_pos hword, if_pos hword, runEnd_byteChars isAsciiClass_isWordPart,
      slice?_takeWhile isAsciiClass_isWordPart, Option.bind_some,
      List.takeWhile_cons_of_pos (isWordPart_of_isWordStart hword)]
    rfl
  rw [if_neg hword, if_neg hword, find?_operators]
  by_cases ho : (c == '(') = true
  · rw [if_pos ho, if_pos ho]
    rfl
  rw [if_neg ho, if_neg ho]
  by_cases hc : (c == ')') = true
  · rw [if_pos hc, if_pos hc]
    rfl
  rw [if_neg hc, if_neg hc]
  cases hsymbol : symbol? (c :: rest) with
  | none => rfl
  | some e =>
    obtain ⟨spelling, x⟩ := e
    dsimp only [Option.map_some]
    rw [size_spelling (List.mem_of_find?_eq_some hsymbol)]
    rfl

/-- A pass that does not fail ends behind a blank or behind the characters of a token. -/
theorem pass_cases (h : condition.toList = front ++ c :: rest) :
    (isAsciiBlank c = true ∧
      pass condition (utf8Len front) = some (.ok (none, utf8Len (front ++ [c])))) ∨
    (∃ e, isAsciiBlank c = false ∧ token (utf8Len front) c rest = .error e ∧
      pass condition (utf8Len front) = some (.error e)) ∨
    ∃ t n, isAsciiBlank c = false ∧ token (utf8Len front) c rest = .ok (t, n) ∧
      pass condition (utf8Len front) =
        some (.ok (some t, utf8Len (front ++ c :: rest.take n))) := by
  have hpass := pass_at h
  by_cases hblank : isAsciiBlank c = true
  · rw [if_pos hblank] at hpass
    exact .inl ⟨hblank, by rw [hpass, String.utf8Len_append, utf8Len_of_isAsciiBlank hblank]⟩
  rw [if_neg hblank] at hpass
  rw [Bool.not_eq_true] at hblank
  cases htoken : token (utf8Len front) c rest with
  | error e => exact .inr (.inl ⟨e, hblank, rfl, by rw [hpass, htoken]; rfl⟩)
  | ok r =>
    obtain ⟨t, n⟩ := r
    refine .inr (.inr ⟨t, n, hblank, rfl, ?_⟩)
    rw [hpass, htoken, String.utf8Len_append, utf8Len_of_token htoken]
    rfl

/-- A pass fails or goes on behind some of the characters in front of it. -/
theorem pass_splits (h : condition.toList = front ++ c :: rest) :
    (∃ e, pass condition (utf8Len front) = some (.error e)) ∨
    ∃ t more rest', more ≠ [] ∧ c :: rest = more ++ rest' ∧
      pass condition (utf8Len front) = some (.ok (t, utf8Len (front ++ more))) := by
  rcases pass_cases h with ⟨-, hpass⟩ | ⟨e, -, -, hpass⟩ | ⟨t, n, -, -, hpass⟩
  · exact .inr ⟨none, [c], rest, List.cons_ne_nil _ _, rfl, hpass⟩
  · exact .inl ⟨e, hpass⟩
  · exact .inr ⟨some t, c :: rest.take n, rest.drop n, List.cons_ne_nil _ _, by simp, hpass⟩

/-! ## A run of passes -/

theorem size_eq_add (h : condition.toList = front ++ rest) :
    Utf8.size condition = utf8Len front + utf8Len rest := by
  rw [size_eq_utf8Len, h, String.utf8Len_append]

theorem lt_size (h : condition.toList = front ++ c :: rest) :
    utf8Len front < Utf8.size condition := by
  rw [size_eq_add h]
  exact Nat.lt_add_of_pos_right (utf8Len_pos (List.cons_ne_nil c rest))

theorem passes_of_ok {t : Option Token} (hi : i < Utf8.size condition)
    (h : pass condition i = some (.ok (t, j))) : passes condition (fuel + 1) i =
      (passes condition fuel j).map fun r => r.map (t.toList ++ ·) := by
  rw [passes, if_pos hi, h]

theorem passes_of_error {e : Fault} (hi : i < Utf8.size condition)
    (h : pass condition i = some (.error e)) :
    passes condition (fuel + 1) i = some (.error e) := by
  rw [passes, if_pos hi, h]

theorem passes_end (hi : Utf8.size condition ≤ i) :
    passes condition (fuel + 1) i = some (.ok []) := by
  rw [passes, if_neg (Nat.not_lt.2 hi)]

/-- The passes from the start of a character on read the tokens behind it. -/
theorem passes_at (h : condition.toList = front ++ rest) (hfuel : rest.length < fuel) :
    passes condition fuel (utf8Len front) = some (tokens (utf8Len front) rest) := by
  induction fuel generalizing front rest with
  | zero => exact absurd hfuel (Nat.not_lt_zero _)
  | succ fuel ih =>
    cases rest with
    | nil => exact (passes_end (size_eq_add h).le).trans (congrArg some (tokens_nil _).symm)
    | cons c rest =>
      have hlt := lt_size h
      rw [List.length_cons] at hfuel
      rcases pass_cases h with ⟨hblank, hpass⟩ | ⟨e, hblank, htoken, hpass⟩ |
        ⟨t, n, hblank, htoken, hpass⟩
      · have hnext : utf8Len (front ++ [c]) = utf8Len front + 1 := by
          rw [String.utf8Len_append, utf8Len_of_isAsciiBlank hblank]
        have hrest := @ih (front ++ [c]) rest (by simp [h]) (by omega)
        rw [passes_of_ok hlt hpass, hrest, hnext, tokens_blank hblank]
        exact congrArg some (congrFun Except.map_id _)
      · rw [passes_of_error hlt hpass, tokens_of_error hblank htoken]
      · have hnext : utf8Len (front ++ c :: rest.take n) = utf8Len front + n + 1 := by
          rw [String.utf8Len_append, utf8Len_of_token htoken, Nat.add_assoc]
        have hrest := @ih (front ++ c :: rest.take n) (rest.drop n) (by simp [h])
          (by rw [List.length_drop]; omega)
        rw [passes_of_ok hlt hpass, hrest, hnext, tokens_of_ok hblank htoken]
        rfl

/-- A pass starts between two characters. -/
theorem Reached.exists_append (h : Reached condition i) :
    ∃ front rest, condition.toList = front ++ rest ∧ utf8Len front = i := by
  induction h with
  | start => exact ⟨[], condition.toList, rfl, rfl⟩
  | @next i j t _ hpass ih =>
    obtain ⟨front, rest, hs, rfl⟩ := ih
    cases rest with
    | nil =>
      have hnone : pass condition (utf8Len front) = none := by
        rw [Scan.pass, hs, getElem?_byteChars]
        rfl
      cases hnone.symm.trans hpass
    | cons c rest =>
      rcases pass_splits hs with ⟨e, h⟩ | ⟨t', more, rest', -, hmore, h⟩
      · cases h.symm.trans hpass
      · cases h.symm.trans hpass
        exact ⟨front ++ more, rest', by rw [hs, hmore, List.append_assoc], rfl⟩

end Scan

open Scan

/-- No condition is divided inside a character. Every pass starts between two characters, and in
front of the end it fails or goes on at a later index. So the passes come to an end, and they read
the tokens of the condition. -/
theorem scan_advances (condition : String) :
    (∀ i, Reached condition i → String.Pos.Raw.IsValid condition ⟨i⟩ ∧
      (i < Utf8.size condition → (∃ e, Scan.pass condition i = some (.error e)) ∨
        ∃ t j, Scan.pass condition i = some (.ok (t, j)) ∧ i < j ∧ j ≤ Utf8.size condition)) ∧
    ∀ fuel, Utf8.size condition < fuel → passes condition fuel 0 = some (tokenize condition) := by
  refine ⟨fun i hi => ?_, fun fuel hfuel => ?_⟩
  · obtain ⟨front, rest, hs, rfl⟩ := hi.exists_append
    refine ⟨(exists_splitAt?_iff condition _).1 ⟨(front, rest), hs ▸ splitAt?_utf8Len front rest⟩,
      fun hlt => ?_⟩
    cases rest with
    | nil => exact absurd hlt (size_eq_add hs).le.not_gt
    | cons c rest =>
      refine (pass_splits hs).imp_right ?_
      rintro ⟨t, more, rest', hne, hmore, hpass⟩
      refine ⟨t, _, hpass, ?_⟩
      rw [size_eq_add hs, hmore, String.utf8Len_append, String.utf8Len_append]
      have hpos := utf8Len_pos hne
      omega
  · rw [size_eq_utf8Len] at hfuel
    exact @passes_at condition fuel [] _ rfl ((length_le_utf8Len _).trans_lt hfuel)

/-- The first byte of a letter that no token starts with is reported in place of the letter. -/
theorem scan_advances_to_letter :
    Reached "n<é" 2 ∧ String.Pos.Raw.IsValid "n<é" ⟨2⟩ ∧
      Scan.pass "n<é" 2 = some (.error (.unexpectedCharacter 'Ã' 2)) ∧
      passes "n<é" 5 0 = some (tokenize "n<é") := by
  have hword : Scan.pass "n<é" 0 = some (.ok (some (.word "n"), 1)) := by cbv
  have hless : Scan.pass "n<é" 1 = some (.ok (some (.symbol (.comparison .less)), 2)) := by cbv
  have hreached : Reached "n<é" 2 := .next (.next .start hword) hless
  exact ⟨hreached, ((scan_advances "n<é").1 2 hreached).1, by cbv,
    (scan_advances "n<é").2 5 (by decide)⟩

end AudioFeatures.Condition
