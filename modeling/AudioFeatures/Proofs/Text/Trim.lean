import Mathlib
import AudioFeatures.Text.Blank
import AudioFeatures.Text.Word

/-! # Stops and trimmed texts

A run of characters of a class ends where the text stops the class. A trimmed text stops the blanks
at both ends, and no word character is a blank.
-/

namespace AudioFeatures.Text

variable {p : Char → Bool} {s t u v b : List Char} {c : Char}

/-- The text does not start with a character of the class. -/
def Stops (p : Char → Bool) (s : List Char) : Prop := ∀ c ∈ s.head?, p c = false

@[simp] theorem stops_nil : Stops p [] := by simp [Stops]

@[simp] theorem stops_cons : Stops p (c :: s) ↔ p c = false := by simp [Stops]

theorem stops_dropWhile (p : Char → Bool) (s : List Char) : Stops p (s.dropWhile p) := by
  intro c hc
  have h := List.head?_dropWhile_not p s
  rw [Option.mem_def.1 hc] at h
  simpa using h

theorem takeWhile_append_of_stops (hs : ∀ c ∈ s, p c = true) (ht : Stops p t) :
    (s ++ t).takeWhile p = s := by
  rw [List.takeWhile_append_of_pos hs]
  cases t with
  | nil => simp
  | cons c t => simp [stops_cons.1 ht]

theorem dropWhile_append_of_stops (hs : ∀ c ∈ s, p c = true) (ht : Stops p t) :
    (s ++ t).dropWhile p = t := by
  rw [List.dropWhile_append_of_pos hs]
  cases t with
  | nil => rfl
  | cons c t => simp [stops_cons.1 ht]

theorem dropWhile_of_stops (h : Stops p s) : s.dropWhile p = s := by
  simpa using dropWhile_append_of_stops (s := []) (by simp) h

theorem stops_of_isPrefix (h : Stops p s) (ht : t <+: s) : Stops p t := by
  obtain ⟨rest, rfl⟩ := ht
  intro c hc
  refine h c ?_
  rw [List.head?_append, Option.mem_def.1 hc]
  rfl

/-- A text ends as every text does that it is the end of. -/
theorem stops_reverse_of_isSuffix (h : Stops p s.reverse) (ht : t <:+ s) : Stops p t.reverse :=
  stops_of_isPrefix h (List.reverse_prefix.2 ht)

theorem stops_append_of_ne_nil (h : s ≠ []) : Stops p (s ++ t) ↔ Stops p s := by
  cases s with
  | nil => exact absurd rfl h
  | cons c s => rw [List.cons_append, stops_cons, stops_cons]

theorem rdropWhile_append_of_stops (hs : Stops p s.reverse) (ht : ∀ c ∈ t, p c = true) :
    (s ++ t).rdropWhile p = s := by
  rw [List.rdropWhile, List.reverse_append,
    dropWhile_append_of_stops (fun c hc => ht c (List.mem_reverse.1 hc)) hs, List.reverse_reverse]

/-- Where a run ends is determined by the text. -/
theorem append_inj_of_stops (hs : ∀ c ∈ s, p c = true) (ht : ∀ c ∈ t, p c = true)
    (hu : Stops p u) (hv : Stops p v) (h : s ++ u = t ++ v) : s = t ∧ u = v := by
  constructor
  · rw [← takeWhile_append_of_stops hs hu, h, takeWhile_append_of_stops ht hv]
  · rw [← dropWhile_append_of_stops hs hu, h, dropWhile_append_of_stops ht hv]

theorem takeWhile_ne_append (h : c ∉ s) : (s ++ c :: t).takeWhile (· != c) = s :=
  takeWhile_append_of_stops (fun d hd => by simpa using fun he : d = c => h (he ▸ hd)) (by simp)

theorem takeWhile_ne_of_not_mem (h : c ∉ s) : s.takeWhile (· != c) = s :=
  List.takeWhile_eq_self_iff.2 fun d hd => by simpa using fun he : d = c => h (he ▸ hd)

theorem dropWhile_ne_append (h : c ∉ s) : (s ++ c :: t).dropWhile (· != c) = c :: t :=
  dropWhile_append_of_stops (fun d hd => by simpa using fun he : d = c => h (he ▸ hd)) (by simp)

/-- Nothing but blanks. -/
def AllBlank (s : List Char) : Prop := ∀ c ∈ s, isBlank c = true

instance (s : List Char) : Decidable (AllBlank s) :=
  decidable_of_iff (s.all isBlank = true) (by simp [AllBlank])

@[simp] theorem allBlank_nil : AllBlank [] := by simp [AllBlank]

theorem trimStart_append_of_allBlank (hb : AllBlank b) : trimStart (b ++ s) = trimStart s :=
  List.dropWhile_append_of_pos hb

theorem trimStart_of_stops (h : Stops isBlank s) : trimStart s = s := dropWhile_of_stops h

theorem trimEnd_of_stops (h : Stops isBlank s.reverse) : trimEnd s = s := by
  rw [trimEnd, dropWhile_of_stops h, List.reverse_reverse]

theorem stops_trimStart (s : List Char) : Stops isBlank (trimStart s) := stops_dropWhile isBlank s

theorem isSuffix_trimStart (s : List Char) : trimStart s <:+ s := List.dropWhile_suffix isBlank

theorem isPrefix_trimEnd (s : List Char) : trimEnd s <+: s :=
  List.reverse_suffix.1 (by rw [trimEnd, List.reverse_reverse]; exact List.dropWhile_suffix isBlank)

theorem mem_of_mem_trim (h : c ∈ trim s) : c ∈ s :=
  (isSuffix_trimStart s).subset ((isPrefix_trimEnd (trimStart s)).subset h)

/-- Trimming does not change the text. -/
def IsTrimmed (s : List Char) : Prop := trim s = s

instance : Decidable (IsTrimmed s) := inferInstanceAs (Decidable (trim s = s))

theorem isTrimmed_of_stops (h : Stops isBlank s) (h' : Stops isBlank s.reverse) :
    IsTrimmed s := by
  rw [IsTrimmed, trim, trimStart_of_stops h, trimEnd_of_stops h']

theorem stops_reverse_trimEnd (s : List Char) : Stops isBlank (trimEnd s).reverse := by
  rw [trimEnd, List.reverse_reverse]
  exact stops_dropWhile isBlank _

theorem isTrimmed_trim (s : List Char) : IsTrimmed (trim s) :=
  isTrimmed_of_stops (stops_of_isPrefix (stops_trimStart s) (isPrefix_trimEnd _))
    (stops_reverse_trimEnd _)

theorem IsTrimmed.stops (h : IsTrimmed s) : Stops isBlank s := by
  rw [← h, trim]
  exact stops_of_isPrefix (stops_trimStart s) (isPrefix_trimEnd _)

theorem IsTrimmed.stops_reverse (h : IsTrimmed s) : Stops isBlank s.reverse := by
  rw [← h, trim]
  exact stops_reverse_trimEnd _

theorem trim_append_of_allBlank (hb : AllBlank b) : trim (b ++ s) = trim s := by
  rw [trim, trimStart_append_of_allBlank hb, trim]

theorem AllBlank.append (hs : AllBlank s) (ht : AllBlank t) : AllBlank (s ++ t) := by
  simpa [AllBlank, or_imp, forall_and] using ⟨hs, ht⟩

/-- A character that is no blank is not among blanks. -/
theorem AllBlank.not_mem (hs : AllBlank s) (hc : isBlank c = false) : c ∉ s :=
  fun h => Bool.false_ne_true (hc.symm.trans (hs c h))

theorem exists_append_trimStart (s : List Char) : ∃ b, AllBlank b ∧ s = b ++ trimStart s :=
  ⟨s.takeWhile isBlank, fun _ hc => List.mem_takeWhile_imp hc, List.takeWhile_append_dropWhile.symm⟩

theorem exists_trimEnd_append (s : List Char) : ∃ b, AllBlank b ∧ s = trimEnd s ++ b := by
  obtain ⟨b, hb, hs⟩ := exists_append_trimStart s.reverse
  refine ⟨b.reverse, by simpa [AllBlank] using hb, ?_⟩
  rw [trimEnd, ← List.reverse_append]
  exact List.reverse_eq_iff.1 hs

/-- Blanks at both ends are all that trimming removes. -/
theorem exists_append_trim_append (s : List Char) :
    ∃ b b', AllBlank b ∧ AllBlank b' ∧ s = b ++ (trim s ++ b') := by
  obtain ⟨b, hb, hs⟩ := exists_append_trimStart s
  obtain ⟨b', hb', ht⟩ := exists_trimEnd_append (trimStart s)
  exact ⟨b, b', hb, hb', hs.trans (by rw [trim, ← ht])⟩

theorem mem_trim_iff (hc : isBlank c = false) : c ∈ trim s ↔ c ∈ s := by
  refine ⟨mem_of_mem_trim, fun h => ?_⟩
  obtain ⟨b, b', hb, hb', hs⟩ := exists_append_trim_append s
  rw [hs, List.mem_append, List.mem_append] at h
  rcases h with h | h | h
  · exact absurd h (hb.not_mem hc)
  · exact h
  · exact absurd h (hb'.not_mem hc)

theorem trimEnd_append_of_allBlank (hb : AllBlank b) : trimEnd (s ++ b) = trimEnd s := by
  rw [trimEnd, List.reverse_append, List.dropWhile_append_of_pos (by simpa [AllBlank] using hb),
    trimEnd]

theorem trimStart_eq_nil_iff : trimStart s = [] ↔ AllBlank s := by
  simp [trimStart, AllBlank]

theorem trim_eq_nil_iff : trim s = [] ↔ AllBlank s := by
  constructor
  · intro h
    obtain ⟨b, b', hb, hb', hs⟩ := exists_append_trim_append s
    rw [hs, h]
    exact hb.append hb'
  · intro h
    rw [trim, trimStart_eq_nil_iff.2 h]
    rfl

/-- A character that is no blank ends what trimming removes in front of it. -/
theorem trimStart_append_cons (hc : isBlank c = false) :
    trimStart (s ++ c :: t) = trimStart s ++ c :: t := by
  rw [trimStart, List.dropWhile_append]
  split
  case isTrue h => simp [trimStart, List.isEmpty_iff.1 h, hc]
  case isFalse => rfl

theorem trimEnd_append_cons (hc : isBlank c = false) :
    trimEnd (s ++ c :: t) = s ++ c :: trimEnd t := by
  have h := trimStart_append_cons (s := t.reverse) (t := s.reverse) hc
  rw [trimStart, trimStart] at h
  rw [trimEnd, List.reverse_append, List.reverse_cons, List.append_assoc, List.singleton_append, h,
    trimEnd]
  simp

theorem trim_append_cons (hc : isBlank c = false) :
    trim (s ++ c :: t) = trimStart s ++ c :: trimEnd t := by
  rw [trim, trimStart_append_cons hc, trimEnd_append_cons hc]

theorem trim_trimStart (s : List Char) : trim (trimStart s) = trim s := by
  rw [trim, trimStart_of_stops (stops_trimStart s), trim]

theorem trim_append_of_allBlank_right (hb : AllBlank b) : trim (s ++ b) = trim s := by
  by_cases hs : AllBlank s
  · rw [trim_eq_nil_iff.2 hs, trim_eq_nil_iff.2 (hs.append hb)]
  · have hne : (s.dropWhile isBlank).isEmpty = false :=
      List.isEmpty_eq_false_iff.2 fun h => hs (trimStart_eq_nil_iff.1 h)
    rw [trim, trimStart, List.dropWhile_append, hne]
    exact trimEnd_append_of_allBlank hb

theorem trim_trimEnd (s : List Char) : trim (trimEnd s) = trim s := by
  obtain ⟨b, hb, hs⟩ := exists_trimEnd_append s
  conv_rhs => rw [hs, trim_append_of_allBlank_right hb]

/-- The code points of the blanks beyond ASCII. -/
def farBlanks : List Nat := [
    0x85, 0xa0, 0x1680, 0x2000, 0x2001, 0x2002, 0x2003, 0x2004, 0x2005, 0x2006, 0x2007, 0x2008,
    0x2009, 0x200a, 0x2028, 0x2029, 0x202f, 0x205f, 0x3000]

theorem mem_farBlanks (h : isBlank c = true) (hc : 0x80 ≤ c.toNat) : c.toNat ∈ farBlanks := by
  simp only [isBlank, Bool.or_eq_true, Bool.and_eq_true, decide_eq_true_eq, beq_iff_eq] at h
  simp only [farBlanks, List.mem_cons, List.not_mem_nil, or_false]
  omega

theorem wordRanges_disjoint_farBlanks :
    ∀ n ∈ farBlanks, (wordRanges.any fun r => r.1 ≤ n && n ≤ r.2) = false := by decide +kernel

theorem le_toNat_of_isAlphanum (h : c.isAlphanum = true) : 0x30 ≤ c.toNat := by
  simp only [Char.isAlphanum, Char.isAlpha, Char.isUpper, Char.isLower, Char.isDigit,
    Bool.or_eq_true, Bool.and_eq_true, decide_eq_true_eq, UInt32.le_iff_toNat_le] at h
  have hv : c.toNat = c.val.toNat := rfl
  rcases h with (⟨h, -⟩ | ⟨h, -⟩) | ⟨h, -⟩ <;> simp at h <;> omega

theorem not_isBlank_of_isWord (h : isWord c = true) : isBlank c = false := by
  by_contra hb
  rw [Bool.not_eq_false] at hb
  rw [isWord] at h
  split at h
  case isTrue hc =>
    rw [Bool.or_eq_true, beq_iff_eq] at h
    have hle : 0x30 ≤ c.toNat := by
      rcases h with h | rfl
      · exact le_toNat_of_isAlphanum h
      · decide
    simp only [isBlank, Bool.or_eq_true, Bool.and_eq_true, decide_eq_true_eq, beq_iff_eq] at hb
    omega
  case isFalse hc =>
    rw [wordRanges_disjoint_farBlanks _ (mem_farBlanks hb (by omega))] at h
    exact Bool.false_ne_true h

theorem stops_isWord_append (hb : AllBlank b) (hs : Stops isWord s) : Stops isWord (b ++ s) := by
  cases b with
  | nil => exact hs
  | cons c b =>
    have hc : isBlank c = true := hb c List.mem_cons_self
    rw [List.cons_append, stops_cons, ← Bool.not_eq_true]
    exact fun hw => Bool.false_ne_true ((not_isBlank_of_isWord hw).symm.trans hc)

end AudioFeatures.Text
