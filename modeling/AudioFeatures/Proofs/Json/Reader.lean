import AudioFeatures.Json.Reader
import AudioFeatures.Json.Writer
import AudioFeatures.Proofs.Text.Trim

/-! # The texts of JSON values

A text reads as a value if the reader takes it for the value whatever follows. Such texts are put
together as values are: literals as they are written, and items and members between commas and in
brackets, with blanks in front of each.
-/

namespace AudioFeatures.Json

open Reader Writer Text

variable {j : Json} {n : Nat} {b s t rest : List Char}

/-! ## Literals -/

theorem hexValue?_hexDigit (h : n < 16) : hexValue? (hexDigit n) = some n := by
  revert h n
  decide

/-- What is read of a character as it is written: a piece that stands for the character. -/
theorem exists_pieces?_escape (c : Char) :
    ∃ p, (∀ s, pieces? (escape c ++ s) = (pieces? s).map fun (ps, r) => (p :: ps, r)) ∧
      ∀ ps, join? (p :: ps) = (join? ps).map (c :: ·) := by
  by_cases hshort : c ∈ ['"', '\\', '\x08', '\x0c', '\n', '\r', '\t']
  · simp only [List.mem_cons, List.not_mem_nil, or_false] at hshort
    rcases hshort with rfl | rfl | rfl | rfl | rfl | rfl | rfl <;>
      exact ⟨.char _, fun _ => rfl, fun _ => rfl⟩
  · simp only [List.mem_cons, List.not_mem_nil, or_false, not_or] at hshort
    by_cases hlow : c.toNat < 0x20
    · have hescape : escape c = ['\\', 'u', '0', '0', hexDigit (c.toNat / 16),
          hexDigit (c.toNat % 16)] := by
        simp [escape, hshort, hlow]
      have hunit : unit? '0' '0' (hexDigit (c.toNat / 16)) (hexDigit (c.toNat % 16)) =
          some c.toNat := by
        have hsum : c.toNat / 16 * 16 + c.toNat % 16 = c.toNat := by omega
        rw [unit?, hexValue?_hexDigit (by omega), hexValue?_hexDigit (by omega)]
        simp [hexValue?, hsum]
      have hlowSurrogate : isLowSurrogate c.toNat = false := by
        simp [isLowSurrogate]
        omega
      have hhighSurrogate : isHighSurrogate c.toNat = false := by
        simp [isHighSurrogate]
        omega
      refine ⟨.unit c.toNat, fun s => ?_, fun ps => ?_⟩
      · simp only [hescape, List.cons_append, List.nil_append, pieces?, hunit]
      · rw [join?.eq_def]
        simp [hlowSurrogate, hhighSurrogate]
    · refine ⟨.char c, fun s => ?_, fun _ => rfl⟩
      have hescape : escape c = [c] := by simp [escape, hshort, hlow]
      rw [hescape, List.cons_append, List.nil_append, pieces?]
      · simp [hshort, hlow]
      · exact hshort.1
      · rintro a b d e s rfl
        exact fun _ => hshort.2.1 rfl
      · exact fun _ _ h _ => hshort.2.1 h

/-- A text between quotation marks is read as the text. -/
theorem stringRest?_escape (s rest : List Char) :
    stringRest? (s.flatMap escape ++ '"' :: rest) = some (some (String.ofList s), rest) := by
  have hpieces : ∃ ps, pieces? (s.flatMap escape ++ '"' :: rest) = some (ps, rest) ∧
      join? ps = some s := by
    induction s with
    | nil => exact ⟨[], rfl, rfl⟩
    | cons c s ih =>
      obtain ⟨ps, hps, hjoin⟩ := ih
      obtain ⟨p, hp, hc⟩ := exists_pieces?_escape c
      refine ⟨p :: ps, ?_, ?_⟩
      · rw [List.flatMap_cons, List.append_assoc, hp, hps]
        rfl
      · rw [hc, hjoin]
        rfl
  obtain ⟨ps, hps, hjoin⟩ := hpieces
  simp [stringRest?, hps, hjoin]

/-- Whether a character goes on with a number literal after its first digits. -/
def continuesNumber (c : Char) : Bool := c.isDigit || c == '.' || c == 'e' || c == 'E'

theorem fraction?_of_stops (h : Stops continuesNumber rest) : fraction? rest = some ([], rest) := by
  cases rest with
  | nil => rfl
  | cons c rest =>
    obtain ⟨-, hpoint, hmark⟩ : c.isDigit = false ∧ c ≠ '.' ∧ c ≠ 'e' ∧ c ≠ 'E' := by
      simpa [continuesNumber, and_assoc] using stops_cons.1 h
    simp [fraction?, hpoint, hmark]

theorem stops_toDigits (h : 0 < n) : Stops (· == '0') (Nat.toDigits 10 n) := by
  induction n using Nat.strongRecOn with
  | ind n ih =>
    by_cases hn : n < 10
    · rw [Nat.toDigits_of_lt_base hn, stops_cons]
      interval_cases n <;> rfl
    · have hdiv : 0 < n / 10 := by omega
      rw [Nat.toDigits_of_base_le (by decide) (Nat.le_of_not_lt hn),
        stops_append_of_ne_nil Nat.toDigits_ne_nil]
      exact ih _ (by omega) hdiv

theorem digits?_append (hs : ∀ c ∈ s, c.isDigit = true) (hne : s ≠ [])
    (h : Stops Char.isDigit rest) : digits? (s ++ rest) = some (s, rest) := by
  rw [digits?, takeWhile_append_of_stops hs h, dropWhile_append_of_stops hs h]
  cases s with
  | nil => exact absurd rfl hne
  | cons c s => rfl

/-- The digits of a number are read as far as they go. -/
theorem number?_toDigits (n : Nat) (h : Stops continuesNumber rest) :
    number? (Nat.toDigits 10 n ++ rest) = some (.natural n, rest) ∧
      number? ('-' :: (Nat.toDigits 10 n ++ rest)) = some (.negative n, rest) := by
  have hfraction := fraction?_of_stops h
  obtain rfl | hpos := n.eq_zero_or_pos
  · have hzero : Nat.toDigits 10 0 = ['0'] := rfl
    have hvalue : natOfDigits ['0'] = 0 := rfl
    simp [number?, hzero, hfraction, hvalue]
  · have hdigits : ∀ c ∈ Nat.toDigits 10 n, c.isDigit = true := fun c hc =>
      Nat.isDigit_of_mem_toDigits (by decide) (by decide) hc
    have hstops : Stops Char.isDigit rest := fun c hc => by
      have hc := h c hc
      simp only [continuesNumber, Bool.or_eq_false_iff] at hc
      exact hc.1.1.1
    have hread : digits? (Nat.toDigits 10 n ++ rest) = some (Nat.toDigits 10 n, rest) :=
      digits?_append hdigits Nat.toDigits_ne_nil hstops
    have hvalue := natOfDigits_toDigits n
    have hzero := stops_toDigits hpos
    obtain ⟨c, ds, hds⟩ := List.exists_cons_of_ne_nil (Nat.toDigits_ne_nil (b := 10) (n := n))
    rw [hds] at hread hvalue hzero hdigits ⊢
    have hc : c ≠ '0' := by simpa using hzero
    have hminus : c ≠ '-' := by
      rintro rfl
      exact absurd (hdigits '-' (by simp)) (by decide)
    rw [List.cons_append] at hread ⊢
    simp [number?, hc, hminus, hread, hfraction, hvalue]

/-! ## Values -/

/-- The reader takes the text for the value, whatever follows that does not go on with a number. -/
def Reads (j : Json) (s : List Char) : Prop :=
  ∀ (n : Nat) (rest : List Char), Stops continuesNumber rest → s.length ≤ n →
    value? (n + 1) (s ++ rest) = some (j, rest)

def IsBlank (b : List Char) : Prop := ∀ c ∈ b, isSpace c = true

theorem isBlank_nil : IsBlank [] := nofun

theorem skip_append (hb : IsBlank b) (s : List Char) : skip (b ++ s) = skip s :=
  List.dropWhile_append_of_pos hb

theorem skip_cons {c : Char} (h : isSpace c = false) (s : List Char) : skip (c :: s) = c :: s :=
  dropWhile_of_stops (stops_cons.2 h)

@[simp] theorem skip_skip (s : List Char) : skip (skip s) = skip s :=
  dropWhile_of_stops (stops_dropWhile _ _)

theorem value?_skip (n : Nat) (s : List Char) : value? n (skip s) = value? n s := by
  cases n with
  | zero => rfl
  | succ n => rw [value?, value?, skip_skip]

theorem items?_skip (n : Nat) (s : List Char) : items? n (skip s) = items? n s := by
  cases n with
  | zero => rfl
  | succ n => rw [items?, items?, value?_skip]

theorem members?_skip (n : Nat) (s : List Char) : members? n (skip s) = members? n s := by
  cases n with
  | zero => rfl
  | succ n => rw [members?, members?, skip_skip]

theorem value?_quote (n : Nat) (s : List Char) :
    value? (n + 1) ('"' :: s) = (stringRest? s).map fun (t, r) => (string t, r) := rfl

/-- A closing bracket starts no value. -/
theorem skip_ne_of_items? {js : List Json} (h : items? n s = some (js, rest)) (r : List Char) :
    skip s ≠ ']' :: r := by
  intro hskip
  rw [← items?_skip, hskip] at h
  match n with
  | 0 => cases h
  | 1 => cases h
  | n + 2 =>
    have hvalue : value? (n + 1) (']' :: r) = none := by
      rw [value?, skip_cons rfl]
      simp [number?, digits?]
    rw [items?, hvalue] at h
    cases h

theorem value?_bracket_close (h : skip s = ']' :: rest) (n : Nat) :
    value? (n + 1) ('[' :: s) = some (array [], rest) := by
  rw [value?, skip_cons rfl]
  simp only [h]

theorem value?_bracket {js : List Json} (h : items? n s = some (js, rest)) :
    value? (n + 1) ('[' :: s) = some (array js, rest) := by
  rw [value?, skip_cons rfl]
  simp only
  split
  case h_1 r hr => exact absurd hr (skip_ne_of_items? h r)
  case h_2 =>
    rw [items?_skip, h]
    rfl

/-- A closing brace starts no name. -/
theorem skip_ne_of_members? {ms : List (Option String × Json)}
    (h : members? n s = some (ms, rest)) (r : List Char) : skip s ≠ '\x7d' :: r := by
  intro hskip
  match n with
  | 0 => cases h
  | n + 1 =>
    rw [members?, hskip] at h
    cases h

theorem value?_brace_close (h : skip s = '\x7d' :: rest) (n : Nat) :
    value? (n + 1) ('\x7b' :: s) = some (object [], rest) := by
  rw [value?, skip_cons rfl]
  simp only [h]

theorem value?_brace {ms : List (Option String × Json)} (h : members? n s = some (ms, rest)) :
    value? (n + 1) ('\x7b' :: s) = some (object ms, rest) := by
  rw [value?, skip_cons rfl]
  simp only
  split
  case h_1 r hr => exact absurd hr (skip_ne_of_members? h r)
  case h_2 =>
    rw [members?_skip, h]
    rfl

/-- What starts with a digit or a minus sign is a number. -/
theorem value?_of_number {c : Char} (hc : c.isDigit = true ∨ c = '-') (n : Nat) (s : List Char) :
    value? (n + 1) (c :: s) = (number? (c :: s)).map fun (m, r) => (number m, r) := by
  have hother {d : Char} (hd : d.isDigit = false) (hd' : d ≠ '-') : c ≠ d := by
    rintro rfl
    obtain hc | hc := hc
    · exact absurd hc (by simp [hd])
    · exact hd' hc
  have hspace : isSpace c = false := by
    simp [isSpace, hother]
  rw [value?, skip_cons hspace]
  split
  case h_7 => rfl
  all_goals
    rename_i heq
    exact absurd (List.cons.inj heq).1 (hother (by decide) (by decide))

namespace Reads

theorem null : Reads null "null".toList := fun _ _ _ _ => rfl

theorem bool (b : Bool) : Reads (bool b) (if b then "true" else "false").toList := by
  intro n rest _ _
  cases b <;> rfl

theorem text (s : String) : Reads (text s) (Writer.string s).toList := by
  intro n rest _ _
  have hstring : (Writer.string s).toList ++ rest =
      '"' :: (s.toList.flatMap escape ++ '"' :: rest) := by
    simp [Writer.string]
  rw [hstring, value?_quote, stringRest?_escape, String.ofList_toList]
  rfl

theorem natural (n : Nat) : Reads (number (.natural n)) (Writer.number (.natural n)).toList := by
  intro m rest hrest _
  obtain ⟨c, ds, hds⟩ := List.exists_cons_of_ne_nil (Nat.toDigits_ne_nil (b := 10) (n := n))
  have hc : c.isDigit = true :=
    Nat.isDigit_of_mem_toDigits (b := 10) (n := n) (by decide) (by decide) (by simp [hds])
  have hread := (number?_toDigits n hrest).1
  have hstring : (Writer.number (.natural n)).toList = Nat.toDigits 10 n := by
    simp [Writer.number]
  rw [hds] at hread
  rw [hstring, hds, List.cons_append, value?_of_number (.inl hc),
    ← List.cons_append, hread]
  rfl

theorem negative (n : Nat) : Reads (number (.negative n)) (Writer.number (.negative n)).toList := by
  intro m rest hrest _
  have hstring : (Writer.number (.negative n)).toList = '-' :: Nat.toDigits 10 n := by
    simp [Writer.number]
  rw [hstring, List.cons_append, value?_of_number (.inr rfl), (number?_toDigits n hrest).2]
  rfl

theorem blank (hb : IsBlank b) (h : Reads j s) : Reads j (b ++ s) := by
  intro n rest hrest hn
  rw [← value?_skip, List.append_assoc, skip_append hb, value?_skip]
  exact h n rest hrest (by rw [List.length_append] at hn; omega)

end Reads

/-! ## Items and members -/

theorem stops_closing {c : Char} (hb : IsBlank b) (hc : continuesNumber c = false) :
    Stops continuesNumber (b ++ c :: rest) := by
  cases b with
  | nil => exact stops_cons.2 hc
  | cons d b =>
    have hd : isSpace d = true := hb d (by simp)
    simp only [isSpace, Bool.or_eq_true, beq_iff_eq] at hd
    rw [List.cons_append, stops_cons]
    rcases hd with ((rfl | rfl) | rfl) | rfl <;> rfl

section

variable {r r₀ : List Char}

theorem items?_last (hvalue : value? n s = some (j, r)) (hr : skip r = ']' :: rest) :
    items? (n + 1) s = some ([j], rest) := by
  rw [items?, hvalue]
  simp only [hr]

theorem items?_next (hvalue : value? n s = some (j, r)) (hr : skip r = ',' :: rest) :
    items? (n + 1) s = (items? n rest).map fun (js, r) => (j :: js, r) := by
  rw [items?, hvalue]
  simp only [hr]

variable {name : String}

theorem members?_last
    (hs : skip s = '"' :: (name.toList.flatMap escape ++ '"' :: ':' :: r₀))
    (hvalue : value? n r₀ = some (j, r)) (hr : skip r = '\x7d' :: rest) :
    members? (n + 1) s = some ([(some name, j)], rest) := by
  rw [members?, hs]
  simp only [stringRest?_escape, String.ofList_toList, skip_cons (c := ':') rfl, hvalue, hr]

theorem members?_next
    (hs : skip s = '"' :: (name.toList.flatMap escape ++ '"' :: ':' :: r₀))
    (hvalue : value? n r₀ = some (j, r)) (hr : skip r = ',' :: rest) :
    members? (n + 1) s = (members? n rest).map fun (ms, r) => ((some name, j) :: ms, r) := by
  rw [members?, hs]
  simp only [stringRest?_escape, String.ofList_toList, skip_cons (c := ':') rfl, hvalue, hr]

end

variable {items : List Json} {texts : List (List Char)} {members : List (String × Json)}

theorem skip_closing {c : Char} (hb : IsBlank b) (hc : isSpace c = false) :
    skip (b ++ c :: rest) = c :: rest := by
  rw [skip_append hb, skip_cons hc]

/-- The texts of items are read one after the other, up to the closing bracket. -/
theorem items?_of_forall₂ (h : List.Forall₂ Reads items texts) (hne : items ≠ []) (hb : IsBlank b)
    (hn : ([','].intercalate texts).length + 2 ≤ n) :
    items? n ([','].intercalate texts ++ (b ++ ']' :: rest)) = some (items, rest) := by
  induction h generalizing n with
  | nil => exact absurd rfl hne
  | @cons j text items texts hj hitems ih =>
    obtain ⟨n, rfl⟩ : ∃ m, n = m + 2 := ⟨n - 2, by omega⟩
    cases hitems with
    | nil =>
      rw [List.intercalate_singleton] at hn ⊢
      exact items?_last (hj n _ (stops_closing hb rfl) (by omega)) (skip_closing hb rfl)
    | cons =>
      rw [List.intercalate_cons_cons] at hn ⊢
      simp only [List.length_append, List.length_cons, List.length_nil] at hn
      simp only [List.append_assoc, List.cons_append, List.nil_append]
      rw [items?_next (hj n _ (stops_cons.2 rfl) (by omega)) (skip_cons rfl _),
        ih (by simp) (by omega)]
      rfl

/-- A member is read as its name and its value. -/
def ReadsMember (m : String × Json) (s : List Char) : Prop :=
  ∃ b t, IsBlank b ∧ Reads m.2 t ∧ s = b ++ ((Writer.string m.1).toList ++ ':' :: t)

theorem skip_member (hb : IsBlank b) (name : String) (s : List Char) :
    skip (b ++ ((Writer.string name).toList ++ ':' :: s)) =
      '"' :: (name.toList.flatMap escape ++ '"' :: ':' :: s) := by
  have hstring : (Writer.string name).toList ++ ':' :: s =
      '"' :: (name.toList.flatMap escape ++ '"' :: ':' :: s) := by
    simp [Writer.string]
  rw [hstring, skip_closing hb rfl]

theorem members?_of_forall₂ (h : List.Forall₂ ReadsMember members texts) (hne : members ≠ [])
    (hb : IsBlank b) (hn : ([','].intercalate texts).length + 2 ≤ n) :
    members? n ([','].intercalate texts ++ (b ++ '\x7d' :: rest)) =
      some (members.map fun m => (some m.1, m.2), rest) := by
  induction h generalizing n with
  | nil => exact absurd rfl hne
  | @cons m text members texts hm hmembers ih =>
    obtain ⟨n, rfl⟩ : ∃ m, n = m + 2 := ⟨n - 2, by omega⟩
    obtain ⟨b', t, hb', ht, rfl⟩ := hm
    cases hmembers with
    | nil =>
      rw [List.intercalate_singleton] at hn ⊢
      simp only [List.length_append, List.length_cons] at hn
      simp only [List.append_assoc, List.cons_append]
      exact members?_last (skip_member hb' _ _) (ht n _ (stops_closing hb rfl) (by omega))
        (skip_closing hb rfl)
    | cons =>
      rw [List.intercalate_cons_cons] at hn ⊢
      simp only [List.length_append, List.length_cons, List.length_nil] at hn
      simp only [List.append_assoc, List.cons_append, List.nil_append]
      rw [members?_next (skip_member hb' _ _) (ht n _ (stops_cons.2 rfl) (by omega))
        (skip_cons rfl _), ih (by simp) (by omega)]
      rfl

namespace Reads

theorem array (h : List.Forall₂ Reads items texts) (hb : IsBlank b) :
    Reads (array items) ('[' :: ([','].intercalate texts ++ (b ++ [']']))) := by
  intro n rest _ hn
  simp only [List.length_cons, List.length_append, List.length_nil] at hn
  simp only [List.cons_append, List.append_assoc, List.nil_append]
  cases h with
  | nil => exact value?_bracket_close (skip_closing hb rfl) n
  | cons hj hitems =>
    exact value?_bracket (items?_of_forall₂ (.cons hj hitems) (by simp) hb (by omega))

theorem ofMembers (h : List.Forall₂ ReadsMember members texts) (hb : IsBlank b) :
    Reads (ofMembers members) ('\x7b' :: ([','].intercalate texts ++ (b ++ ['\x7d']))) := by
  intro n rest _ hn
  simp only [List.length_cons, List.length_append, List.length_nil] at hn
  simp only [List.cons_append, List.append_assoc, List.nil_append]
  cases h with
  | nil => exact value?_brace_close (skip_closing hb rfl) n
  | cons hm hmembers =>
    exact value?_brace (members?_of_forall₂ (.cons hm hmembers) (by simp) hb (by omega))

/-- The whole of a text that reads as a value is read as the value. -/
theorem read?_eq {s : String} (h : Reads j s.toList) : read? s = some j := by
  have hvalue := h s.length [] stops_nil s.length_toList.le
  rw [List.append_nil] at hvalue
  rw [read?, hvalue]
  rfl

end Reads

end AudioFeatures.Json
