import AudioFeatures.Condition.Lexer
import AudioFeatures.Proofs.Fallible
import AudioFeatures.Proofs.Text.Trim

/-! # Tokens in context

A part of a condition is read as the same tokens wherever it stands, as long as what follows it does
not continue its last number or word. What is read of a text made of parts is then read of the parts
one after the other.
-/

namespace AudioFeatures.Condition.Lexer

open Text

variable {offset n : Nat} {c : Char} {s u : List Char} {t : Token} {e : Fault}
  {x y : Except Fault (List Token)} {follow next : List Char → Prop}

/-- The tokens of a text that stands at an offset. -/
def tokens (offset : Nat) (s : List Char) : Except Fault (List Token) :=
  (lexemes offset s).map fun ls => ls.map (·.token)

theorem tokenize_eq (condition : String) : tokenize condition = tokens 0 condition.toList := rfl

theorem tokens_nil (offset : Nat) : tokens offset [] = .ok [] := by
  rw [tokens, lexemes]
  rfl

theorem tokens_blank (hc : isAsciiBlank c = true) :
    tokens offset (c :: s) = tokens (offset + 1) s := by
  rw [tokens, lexemes, if_pos hc]
  rfl

theorem tokens_of_ok (hc : isAsciiBlank c = false) (h : token offset c s = .ok (t, n)) :
    tokens offset (c :: s) = (tokens (offset + n + 1) (s.drop n)).map (t :: ·) := by
  rw [tokens, lexemes, if_neg (by simp [hc]), h, tokens]
  dsimp only
  cases lexemes (offset + n + 1) (s.drop n) <;> rfl

theorem tokens_of_error (hc : isAsciiBlank c = false) (h : token offset c s = .error e) :
    tokens offset (c :: s) = .error e := by
  rw [tokens, lexemes, if_neg (by simp [hc]), h]
  rfl

/-- What is read of a text in front of everything that may follow it. -/
def Yields (follow : List Char → Prop) (s : List Char) (x : Except Fault (List Token)) : Prop :=
  ∀ offset rest, follow rest → tokens offset (s ++ rest) =
    x >>= fun ts => (tokens (offset + s.length) rest).map (ts ++ ·)

/-- Texts that continue neither a number nor a word. -/
def Ends (s : List Char) : Prop := Stops isNumberPart s ∧ Stops isWordPart s

def Anything (_ : List Char) : Prop := True

theorem ends_nil : Ends [] := ⟨stops_nil, stops_nil⟩

theorem ends_cons (hn : isNumberPart c = false) (hw : isWordPart c = false) : Ends (c :: s) :=
  ⟨stops_cons.2 hn, stops_cons.2 hw⟩

theorem Yields.tokens_eq (h : Yields follow s x) (hnil : follow []) (offset : Nat) :
    tokens offset s = x := by
  have hs := h offset [] hnil
  rw [List.append_nil, tokens_nil] at hs
  rw [hs]
  cases x with
  | error e => rfl
  | ok ts => simp [bind, Except.bind, Except.map]

theorem Yields.append (hs : Yields follow s x) (hu : Yields next u y)
    (hnext : ∀ rest, next rest → follow (u ++ rest)) :
    Yields next (s ++ u) (x >>= fun ts => y.map (ts ++ ·)) := by
  intro offset rest hrest
  rw [List.append_assoc, hs offset _ (hnext rest hrest), hu _ rest hrest, List.length_append,
    ← Nat.add_assoc]
  cases x with
  | error e => rfl
  | ok ts =>
    cases y with
    | error e => rfl
    | ok us =>
      simp only [ok_bind, Except.map]
      cases tokens (offset + s.length + u.length) rest <;> simp

theorem yields_nil : Yields follow [] (.ok []) := by
  intro offset rest _
  rw [List.nil_append, ok_bind]
  cases tokens offset rest <;> rfl

theorem yields_blank (hc : isAsciiBlank c = true) : Yields follow [c] (.ok []) := by
  intro offset rest _
  rw [List.singleton_append, tokens_blank hc, ok_bind]
  cases tokens (offset + 1) rest <;> rfl

theorem yields_token (hc : isAsciiBlank c = false)
    (h : ∀ offset rest, follow rest → token offset c (s ++ rest) = .ok (t, s.length)) :
    Yields follow (c :: s) (.ok [t]) := by
  intro offset rest hrest
  rw [List.cons_append, tokens_of_ok hc (h offset rest hrest), List.drop_left]
  rfl

theorem yields_error (hc : isAsciiBlank c = false)
    (h : ∀ offset rest, follow rest → token offset c (s ++ rest) = .error e) :
    Yields follow (c :: s) (.error e) := by
  intro offset rest hrest
  rw [List.cons_append, tokens_of_error hc (h offset rest hrest)]
  rfl

/-! ## Characters of the classes -/

def asciiBlanks : List Char := [' ', '\t', '\n', '\x0c', '\r']

/-- A class that holds no blank is stopped by every blank. -/
theorem eq_false_of_isAsciiBlank {p : Char → Bool} (hp : asciiBlanks.any p = false)
    (hc : isAsciiBlank c = true) : p c = false := by
  have hmem : c ∈ asciiBlanks := by simpa [isAsciiBlank, asciiBlanks, or_assoc] using hc
  simpa using List.any_eq_false.1 hp c hmem

theorem not_isAsciiBlank {p : Char → Bool} (hp : asciiBlanks.any p = false) (hc : p c = true) :
    isAsciiBlank c = false := by
  by_contra hb
  rw [Bool.not_eq_false] at hb
  exact Bool.false_ne_true ((eq_false_of_isAsciiBlank hp hb).symm.trans hc)

theorem ends_cons_of_isAsciiBlank (hc : isAsciiBlank c = true) : Ends (c :: s) :=
  ends_cons (eq_false_of_isAsciiBlank (by decide) hc) (eq_false_of_isAsciiBlank (by decide) hc)

theorem not_isDigit_of_isWordStart (hc : isWordStart c = true) : c.isDigit = false := by
  by_contra hd
  simp only [Bool.not_eq_false, Char.isDigit, isWordStart, Char.isAlpha, Char.isUpper,
    Char.isLower, Bool.or_eq_true, Bool.and_eq_true, decide_eq_true_eq, beq_iff_eq,
    UInt32.le_iff_toNat_le] at hd hc
  rcases hc with (⟨hc, -⟩ | ⟨hc, -⟩) | rfl
  · exact absurd (hc.trans hd.2) (by decide)
  · exact absurd (hc.trans hd.2) (by decide)
  · exact absurd hd.2 (by decide)

/-! ## Numerals and names -/

/-- The text of an integer. -/
def IsNumeral (s : List Char) : Prop := s ≠ [] ∧ s.all Char.isDigit = true

/-- The text of a word. -/
def IsName (s : List Char) : Prop := s.head?.any isWordStart = true ∧ s.all isWordPart = true

instance (s : List Char) : Decidable (IsNumeral s) := inferInstanceAs (Decidable (_ ∧ _))

instance (s : List Char) : Decidable (IsName s) := inferInstanceAs (Decidable (_ ∧ _))

theorem number?_of_digits (hs : s.all Char.isDigit = true) : number? s =
    if natOfDigits s < 2 ^ 63 then some (.int (Int64.ofNat (natOfDigits s))) else none := by
  have hpoint : s.filter (· == '.') = [] := by
    refine List.filter_eq_nil_iff.2 fun d hd hp => ?_
    rw [beq_iff_eq.1 hp] at hd
    exact absurd (List.all_eq_true.1 hs _ hd) (by decide)
  rw [number?, hpoint]
  rfl

theorem token_of_digits (hs : (c :: s).all Char.isDigit = true) (hu : Ends u) :
    token offset c (s ++ u) =
      if natOfDigits (c :: s) < 2 ^ 63 then
        .ok (.int (Int64.ofNat (natOfDigits (c :: s))), s.length)
      else .error (.badNumber (String.ofList (c :: s))) := by
  have hdigits := List.all_eq_true.1 hs
  have hrun : (s ++ u).takeWhile isNumberPart = s :=
    takeWhile_append_of_stops
      (fun d hd => by simp [isNumberPart, hdigits d (List.mem_cons_of_mem _ hd)]) hu.1
  rw [token, if_pos (by simp [hdigits c List.mem_cons_self])]
  by_cases hfits : natOfDigits (c :: s) < 2 ^ 63
  · simp only [hrun, number?_of_digits hs, if_pos hfits]
  · simp only [hrun, number?_of_digits hs, if_neg hfits]

/-- Digits are read as the number they denote, which must have 64 bits with a sign. -/
theorem yields_numeral (h : IsNumeral s) : Yields Ends s
    (if natOfDigits s < 2 ^ 63 then .ok [.int (Int64.ofNat (natOfDigits s))]
      else .error (.badNumber (String.ofList s))) := by
  obtain ⟨hne, hs⟩ := h
  obtain ⟨c, s, rfl⟩ := List.exists_cons_of_ne_nil hne
  have hc : isAsciiBlank c = false :=
    not_isAsciiBlank (by decide) (List.all_eq_true.1 hs c List.mem_cons_self)
  split
  case isTrue h =>
    refine yields_token hc fun offset rest hrest => ?_
    rw [token_of_digits hs hrest, if_pos h]
  case isFalse h =>
    refine yields_error hc fun offset rest hrest => ?_
    rw [token_of_digits hs hrest, if_neg h]

theorem yields_name (h : IsName s) : Yields Ends s (.ok [.word (String.ofList s)]) := by
  obtain ⟨hc, hs⟩ := h
  cases s with
  | nil => cases hc
  | cons c s =>
    replace hc : isWordStart c = true := hc
    have hpoint : c ≠ '.' := by
      rintro rfl
      exact absurd hc (by decide)
    refine yields_token (not_isAsciiBlank (by decide) hc) fun offset rest hrest => ?_
    have hrun : (s ++ rest).takeWhile isWordPart = s :=
      takeWhile_append_of_stops (List.forall_mem_cons.1 (List.all_eq_true.1 hs)).2 hrest.2
    rw [token, if_neg (by simp [not_isDigit_of_isWordStart hc, hpoint]), if_pos hc]
    simp only [hrun]

end AudioFeatures.Condition.Lexer
