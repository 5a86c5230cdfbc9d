import AudioFeatures.Condition.Evaluation
import AudioFeatures.Proofs.Condition.Lexer

/-! # Blanks between tokens

The lexemes of a condition and the blanks between them make up the condition. More blanks between
two lexemes, before the first or behind the last change no token: where a lexeme ends is decided by
what follows it, and a blank ends every lexeme.
-/

namespace AudioFeatures.Condition

open Text

namespace Lexer

variable {offset : Nat} {c : Char} {b s u v more rest : List Char} {t : Token} {l : Lexeme}
  {ls : List Lexeme} {texts : List (List Char)}

/-- ASCII blanks and nothing else. -/
def IsSpace (b : List Char) : Prop := ∀ c ∈ b, isAsciiBlank c = true

instance (b : List Char) : Decidable (IsSpace b) :=
  decidable_of_iff (b.all isAsciiBlank = true) (by simp [IsSpace])

/-- The first text is made of the given parts and of blanks between and around them. The second is
made of them too, with the same blanks and more. -/
inductive Widened : List (List Char) → List Char → List Char → Prop
  | last {b b' : List Char} : b.Sublist b' → IsSpace b' → Widened [] b b'
  | next {b b' text s u : List Char} {texts : List (List Char)} : b.Sublist b' → IsSpace b' →
      Widened texts s u → Widened (text :: texts) (b ++ (text ++ s)) (b' ++ (text ++ u))

/-- A lexeme that the first text ends is ended by the second. -/
def EndsLike (u v : List Char) : Prop := v.head? = u.head? ∨ v.head?.any isAsciiBlank = true

theorem EndsLike.append {b' : List Char} (hb : b.Sublist b') (hspace : IsSpace b')
    (h : EndsLike s u) : EndsLike (b ++ s) (b' ++ u) := by
  cases b' with
  | nil => rwa [List.sublist_nil.1 hb]
  | cons d b' => exact .inr (hspace d List.mem_cons_self)

theorem Widened.endsLike (h : Widened texts s u) : EndsLike s u := by
  induction h with
  | last hb hspace => simpa using EndsLike.append (s := []) (u := []) hb hspace (.inl rfl)
  | @next b b' text s u _ hb hspace _ ih =>
    refine EndsLike.append hb hspace ?_
    cases text with
    | nil => exact ih
    | cons d text => exact .inl rfl

/-! ## One lexeme -/

/-- A number starts with a digit, or with a point in front of one. -/
def startsNumber (c : Char) (rest : List Char) : Bool :=
  c.isDigit || (c == '.' && (rest.head?.map Char.isDigit).getD false)

/-- The token that starts with `c` and goes on with a part of `rest` of the given length. -/
inductive Starts (c : Char) (rest : List Char) : Token → Nat → Prop
  | number {t : Token} : startsNumber c rest = true →
      number? (c :: rest.takeWhile isNumberPart) = some t →
      Starts c rest t (rest.takeWhile isNumberPart).length
  | word : startsNumber c rest = false → isWordStart c = true →
      Starts c rest (.word (String.ofList (c :: rest.takeWhile isWordPart)))
        (rest.takeWhile isWordPart).length
  | opening : c = '(' → Starts c rest .opening 0
  | closing : c = ')' → Starts c rest .closing 0
  | symbol {spelling : String} {s : Symbol} : startsNumber c rest = false →
      isWordStart c = false → c ≠ '(' → c ≠ ')' → symbol? (c :: rest) = some (spelling, s) →
      Starts c rest (.symbol s) (spelling.length - 1)

theorem token_eq (offset : Nat) (c : Char) (rest : List Char) : token offset c rest =
    if startsNumber c rest then
      match number? (c :: rest.takeWhile isNumberPart) with
      | some t => .ok (t, (rest.takeWhile isNumberPart).length)
      | none => .error (.badNumber (String.ofList (c :: rest.takeWhile isNumberPart)))
    else if isWordStart c then
      .ok (.word (String.ofList (c :: rest.takeWhile isWordPart)),
        (rest.takeWhile isWordPart).length)
    else if c == '(' then .ok (.opening, 0)
    else if c == ')' then .ok (.closing, 0)
    else
      match symbol? (c :: rest) with
      | some (spelling, s) => .ok (.symbol s, spelling.length - 1)
      | none => .error (.unexpectedCharacter (lead c) offset) := rfl

theorem starts_of_token {n : Nat} (h : token offset c rest = .ok (t, n)) : Starts c rest t n := by
  rw [token_eq] at h
  split at h
  case isTrue hn =>
    split at h
    case h_1 ht =>
      cases h
      exact .number hn ht
    case h_2 => cases h
  case isFalse hn =>
  rw [Bool.not_eq_true] at hn
  split at h
  case isTrue hw =>
    cases h
    exact .word hn hw
  case isFalse hw =>
  split at h
  case isTrue ho =>
    cases h
    exact .opening (by simpa using ho)
  case isFalse ho =>
  split at h
  case isTrue hc =>
    cases h
    exact .closing (by simpa using hc)
  case isFalse hc =>
  split at h
  case h_1 hs =>
    cases h
    exact .symbol hn (by simpa using hw) (by simpa using ho) (by simpa using hc) hs
  case h_2 => cases h

theorem token_eq_ok_iff {n : Nat} : token offset c rest = .ok (t, n) ↔ Starts c rest t n := by
  refine ⟨starts_of_token, fun h => ?_⟩
  rw [token_eq]
  cases h with
  | number hn ht => simp [hn, ht]
  | word hn hw => simp [hn, hw]
  | opening ho =>
    subst ho
    rfl
  | closing hc =>
    subst hc
    rfl
  | symbol hn hw ho hc hs => simp [hn, hw, ho, hc, hs]

theorem spellings_short : ∀ e ∈ Symbol.spellings,
    0 < e.1.toList.length ∧ e.1.toList.length ≤ 2 ∧ ∀ d ∈ e.1.toList, isAsciiBlank d = false := by
  simp [Symbol.spellings, isAsciiBlank]

/-- A symbol is read where its spelling stands, unless a longer one does. -/
theorem symbol?_eq_some_iff {spelling : String} {x : Symbol} : symbol? s = some (spelling, x) ↔
    spelling.toList <+: s ∧ ∃ front back, Symbol.spellings = front ++ (spelling, x) :: back ∧
      ∀ e ∈ front, ¬e.1.toList <+: s := by
  have hnot (w : List Char) : (!w.isPrefixOf s) = true ↔ ¬w <+: s := by
    simp [← List.isPrefixOf_iff_prefix]
  simp only [symbol?, List.find?_eq_some_iff_append, List.isPrefixOf_iff_prefix, hnot,
    exists_and_right]

namespace EndsLike

theorem stops {p : Char → Bool} (h : EndsLike u v) (hp : asciiBlanks.any p = false)
    (hu : Stops p u) : Stops p v := by
  rintro d hd
  rcases h with h | h
  · exact hu d (h ▸ hd)
  · rw [Option.mem_def.1 hd] at h
    exact eq_false_of_isAsciiBlank hp h

/-- A run that makes up the first part of a text is the same in front of the second. -/
theorem takeWhile_eq {p : Char → Bool} (h : EndsLike u v) (hp : asciiBlanks.any p = false)
    (hs : ((s ++ u).takeWhile p).length = s.length) :
    (s ++ u).takeWhile p = s ∧ Stops p u ∧ (s ++ v).takeWhile p = s := by
  have hrun : (s ++ u).takeWhile p = s :=
    (List.prefix_of_prefix_length_le (List.takeWhile_prefix p) (List.prefix_append s u)
      hs.le).eq_of_length hs
  have hall : ∀ d ∈ s, p d = true := fun d hd => List.mem_takeWhile_imp (hrun.symm ▸ hd)
  have hstops : Stops p u := by
    have hnil := hrun
    rw [List.takeWhile_append_of_pos hall, List.append_right_eq_self] at hnil
    cases u with
    | nil => exact stops_nil
    | cons d u => exact stops_cons.2 (by simpa [List.takeWhile_cons] using hnil)
  exact ⟨hrun, hstops, takeWhile_append_of_stops hall (h.stops hp hstops)⟩

theorem startsNumber_eq_false (h : EndsLike u v) (hu : startsNumber c (s ++ u) = false) :
    startsNumber c (s ++ v) = false := by
  cases s with
  | cons d s => exact hu
  | nil =>
    simp only [startsNumber, List.nil_append, Bool.or_eq_false_iff, Bool.and_eq_false_iff] at hu ⊢
    refine ⟨hu.1, hu.2.imp_right fun hhead => ?_⟩
    have hstops : Stops Char.isDigit u := fun d hd => by simpa [Option.mem_def.1 hd] using hhead
    cases v with
    | nil => rfl
    | cons d v => simpa using h.stops (by decide) hstops

theorem startsNumber_eq_true (hu : startsNumber c (s ++ u) = true)
    (hstops : Stops isNumberPart u) : startsNumber c (s ++ v) = true := by
  cases s with
  | cons d s => exact hu
  | nil =>
    have hc : c.isDigit = true := by
      cases u with
      | nil => simpa [startsNumber] using hu
      | cons d u =>
        have hd : d.isDigit = false := (Bool.or_eq_false_iff.1 (stops_cons.1 hstops)).1
        simpa [startsNumber, hd] using hu
    simp [startsNumber, hc]

/-- A spelling is in front of the second text only if it is in front of the first. -/
theorem isPrefix {e : String × Symbol} (h : EndsLike u v) (he : e ∈ Symbol.spellings)
    (hv : e.1.toList <+: c :: (s ++ v)) : e.1.toList <+: c :: (s ++ u) := by
  obtain ⟨-, hlength, hblank⟩ := spellings_short e he
  generalize e.1.toList = w at hlength hblank hv
  match w, s with
  | [], _ => exact List.nil_prefix
  | [a], _ => simpa using hv
  | [a, d], e :: s => simpa using hv
  | [a, d], [] =>
    obtain ⟨rfl, rest, rfl⟩ : a = c ∧ [d] <+: v := by simpa using hv
    rcases h with h | h
    · cases u with
      | nil => cases h
      | cons d' u =>
        obtain rfl : d = d' := by simpa using h
        simp
    · exact absurd (hblank d (by simp)) (by simpa using h)

/-- What is read in front of the first text is read in front of the second. -/
theorem starts (h : EndsLike u v) (hu : Starts c (s ++ u) t s.length) :
    Starts c (s ++ v) t s.length := by
  generalize hn : s.length = n at hu
  cases hu with
  | number hstart ht =>
    obtain ⟨hrun, hstops, hrun'⟩ := h.takeWhile_eq (by decide) hn.symm
    rw [hrun, ← hrun'] at ht
    have hv := Starts.number (startsNumber_eq_true (v := v) hstart hstops) ht
    rw [hrun'] at hv
    rwa [hrun]
  | word hstart hc =>
    obtain ⟨hrun, -, hrun'⟩ := h.takeWhile_eq (by decide) hn.symm
    have hv := Starts.word (h.startsNumber_eq_false hstart) hc
    rw [hrun'] at hv
    rwa [hrun]
  | opening hc => exact .opening hc
  | closing hc => exact .closing hc
  | @symbol spelling x hstart hc ho hc' hsymbol =>
    obtain ⟨hspelling, front, back, hspellings, hfront⟩ := symbol?_eq_some_iff.1 hsymbol
    have hmem : ∀ e ∈ front ++ (spelling, x) :: back, e ∈ Symbol.spellings := fun e he =>
      hspellings ▸ he
    have hlength : (c :: s).length = spelling.toList.length := by
      have hpos : 0 < spelling.toList.length :=
        (spellings_short (spelling, x) (hmem _ (by simp))).1
      rw [List.length_cons, hn, ← String.length_toList]
      omega
    have heq : c :: s = spelling.toList :=
      (List.prefix_of_prefix_length_le (List.prefix_append (c :: s) u) hspelling
        hlength.le).eq_of_length hlength
    have hsymbol' : symbol? (c :: (s ++ v)) = some (spelling, x) :=
      symbol?_eq_some_iff.2 ⟨heq ▸ List.prefix_append (c :: s) v, front, back, hspellings,
        fun e he hv => hfront e he (h.isPrefix (hmem e (by simp [he])) hv)⟩
    exact .symbol (h.startsNumber_eq_false hstart) hc ho hc' hsymbol'

end EndsLike

/-! ## All lexemes -/

theorem isSpace_of_lexemes (h : lexemes offset s = .ok []) : IsSpace s := by
  fun_induction lexemes offset s with
  | case1 => nofun
  | case2 offset c rest hc ih => exact List.forall_mem_cons.2 ⟨hc, ih h⟩
  | case3 => cases h
  | case4 => cases h
  | case5 => cases h

theorem Starts.length_le {n : Nat} (h : Starts c rest t n) : n ≤ rest.length := by
  cases h with
  | number => exact (List.takeWhile_prefix _).length_le
  | word => exact (List.takeWhile_prefix _).length_le
  | opening => exact Nat.zero_le _
  | closing => exact Nat.zero_le _
  | @symbol spelling x _ _ _ _ hsymbol =>
    have hle := (symbol?_eq_some_iff.1 hsymbol).1.length_le
    rw [List.length_cons, String.length_toList] at hle
    omega

/-- The first lexeme stands behind blanks, and the others are those of what follows it. -/
theorem exists_of_lexemes (h : lexemes offset s = .ok (l :: ls)) : ∃ b c more rest offset',
    IsSpace b ∧ isAsciiBlank c = false ∧ s = b ++ (c :: more ++ rest) ∧ l.chars = c :: more ∧
      Starts c (more ++ rest) l.token more.length ∧ lexemes offset' rest = .ok ls := by
  fun_induction lexemes offset s with
  | case1 => cases h
  | case2 offset c rest hc ih =>
    obtain ⟨b, d, more, rest', offset', hb, hd, rfl, hl⟩ := ih h
    exact ⟨c :: b, d, more, rest', offset', List.forall_mem_cons.2 ⟨hc, hb⟩, hd, rfl, hl⟩
  | case3 => cases h
  | case4 => cases h
  | case5 offset c rest hc t n htoken ls' hls ih =>
    cases h
    have hstarts := starts_of_token htoken
    have hlength : (rest.take n).length = n := List.length_take_of_le hstarts.length_le
    refine ⟨[], c, rest.take n, rest.drop n, offset + n + 1, nofun, by simpa using hc, ?_, rfl,
      ?_, hls⟩
    · rw [List.nil_append, List.cons_append, List.take_append_drop]
    · rwa [List.take_append_drop, hlength]

/-- The lexemes and the blanks around them make up the text. -/
theorem widened_self (h : lexemes offset s = .ok ls) : Widened (ls.map (·.chars)) s s := by
  induction ls generalizing offset s with
  | nil => exact .last (.refl _) (isSpace_of_lexemes h)
  | cons l ls ih =>
    obtain ⟨b, c, more, rest, offset', hb, -, rfl, hchars, -, hrest⟩ := exists_of_lexemes h
    rw [List.map_cons, hchars]
    exact .next (.refl _) hb (ih hrest)

theorem tokens_space (hb : IsSpace b) (s : List Char) :
    tokens offset (b ++ s) = tokens (offset + b.length) s := by
  induction b generalizing offset with
  | nil => rfl
  | cons c b ih =>
    obtain ⟨hc, hb⟩ := List.forall_mem_cons.1 hb
    rw [List.cons_append, tokens_blank hc, ih hb, List.length_cons, Nat.add_comm b.length,
      Nat.add_assoc]

theorem tokens_widened (hw : Widened texts s u) (h : lexemes offset s = .ok ls)
    (htexts : ls.map (·.chars) = texts) (offset' : Nat) :
    tokens offset' u = .ok (ls.map (·.token)) := by
  induction hw generalizing offset ls offset' with
  | @last b b' _ hspace =>
    obtain rfl : ls = [] := List.map_eq_nil_iff.1 htexts
    rw [← List.append_nil b', tokens_space hspace, tokens_nil]
    rfl
  | @next b b' text s u texts hb hspace hw ih =>
    obtain ⟨l, ls, rfl, rfl, htail⟩ := List.map_eq_cons_iff.1 htexts
    obtain ⟨b₁, c, more, rest, offset₁, hb₁, hc, htext, hchars, hstarts, hls⟩ :=
      exists_of_lexemes h
    have hb₀ : IsSpace b := fun d hd => hspace d (hb.subset hd)
    rw [hchars] at htext ⊢
    -- blanks end where the first lexeme starts, so the text is taken apart in the same way
    obtain ⟨rfl, hrest⟩ := append_inj_of_stops hb₀ hb₁ (stops_cons.2 hc) (stops_cons.2 hc) htext
    replace hrest : c :: more ++ s = c :: more ++ rest := hrest
    obtain rfl : s = rest := List.append_cancel_left hrest
    have htoken (o : Nat) : token o c (more ++ u) = .ok (l.token, more.length) :=
      token_eq_ok_iff.2 (hw.endsLike.starts hstarts)
    rw [tokens_space hspace, List.cons_append, tokens_of_ok hc (htoken _), List.drop_left,
      ih hls htail]
    rfl

end Lexer

open Lexer

/-- More blanks around the lexemes, which make up a condition with the blanks that are there, change
neither the tokens nor, whatever the variables are, the value or the fault. -/
theorem evaluate_widened {condition : String} {ls : List Lexeme}
    (h : lexemes 0 condition.toList = .ok ls) :
    Widened (ls.map (·.chars)) condition.toList condition.toList ∧
      ∀ wider : String, Widened (ls.map (·.chars)) condition.toList wider.toList →
        tokenize wider = tokenize condition ∧
          ∀ locals, evaluate wider locals = evaluate condition locals := by
  refine ⟨widened_self h, fun wider hw => ?_⟩
  have htokens : tokenize wider = tokenize condition := by
    rw [tokenize_eq, tokens_widened hw h rfl 0, tokenize, h]
    rfl
  exact ⟨htokens, fun locals => by rw [evaluate, evaluate, htokens]⟩

/-- A number may touch a word; blanks that come between the two change nothing. -/
theorem evaluate_widened_touching :
    let ls : List Lexeme := [⟨0, ['1'], .int 1⟩, ⟨1, ['o', 'r'], .word "or"⟩,
      ⟨4, ['/', '/'], .symbol (.arithmetic .floorDivide)⟩]
    lexemes 0 "1or //".toList = .ok ls ∧
      Widened (ls.map (·.chars)) "1or //".toList "\t1\nor\r // ".toList ∧
      ∀ locals, evaluate "\t1\nor\r // " locals = evaluate "1or //" locals := by
  have h : lexemes 0 "1or //".toList = .ok [⟨0, ['1'], .int 1⟩, ⟨1, ['o', 'r'], .word "or"⟩,
      ⟨4, ['/', '/'], .symbol (.arithmetic .floorDivide)⟩] := by cbv
  have hw : Widened [['1'], ['o', 'r'], ['/', '/']]
      ([] ++ (['1'] ++ ([] ++ (['o', 'r'] ++ ([' '] ++ (['/', '/'] ++ []))))))
      (['\t'] ++ (['1'] ++ (['\n'] ++ (['o', 'r'] ++ (['\r', ' '] ++ (['/', '/'] ++ [' '])))))) :=
    .next (List.nil_sublist _) (by decide) (.next (List.nil_sublist _) (by decide)
      (.next (List.sublist_cons_self _ _) (by decide) (.last (List.nil_sublist _) (by decide))))
  exact ⟨h, hw, ((evaluate_widened h).2 "\t1\nor\r // " hw).2⟩

end AudioFeatures.Condition
