import AudioFeatures.Proofs.Text.Trim

/-! # Patterns

A pattern is tried at every place of a text, from left to right. A run takes up as many characters
as it can and gives them back one by one, as long as what comes behind it does not match. The first
match that is found counts.
-/

namespace AudioFeatures

open Text

/-- A class of characters. -/
inductive CharClass where
  | any
  | blank
  | word
  | only (c : Char)
  | except (c : Char)

def CharClass.test : CharClass → Char → Bool
  | any, _ => true
  | blank, c => isBlank c
  | word, c => isWord c
  | only d, c => c == d
  | except d, c => c != d

namespace CharClass

def source : CharClass → String
  | any => "."
  | blank => "\\s"
  | word => "\\w"
  | only c => "\\".push c
  | except c => ("[^".push c).push ']'

@[simp] theorem test_only (c : Char) : (only c).test = (· == c) := rfl

@[simp] theorem test_except (c : Char) : (except c).test = (· != c) := rfl

end CharClass

inductive Pattern where
  | nothing
  | start
  | finish
  | one (k : CharClass)
  | many (k : CharClass)
  | many1 (k : CharClass)
  | seq (q r : Pattern)
  | optional (q : Pattern)
  | group (i : Nat) (q : Pattern)

/-- What a pattern takes up of a text, what follows, and what its groups hold. -/
structure Match where
  text : List Char
  rest : List Char
  groups : List (Nat × List Char)

namespace Match

/-- The match that takes up nothing. -/
def here (s : List Char) : Match := ⟨[], s, []⟩

/-- A match, and another one of what follows it. -/
def before (m n : Match) : Match := ⟨m.text ++ n.text, n.rest, m.groups ++ n.groups⟩

@[simp] theorem text_here (s : List Char) : (here s).text = [] := rfl

@[simp] theorem rest_here (s : List Char) : (here s).rest = s := rfl

@[simp] theorem here_before (s : List Char) : (here s).before = id := rfl

def group? (m : Match) (i : Nat) : Option (List Char) := m.groups.lookup i

end Match

/-- The runs of characters at the front of a text, the longest first. -/
def CharClass.runs (k : CharClass) : List Char → List Match
  | [] => []
  | c :: s =>
    if k.test c then
      (k.runs s ++ [Match.here s]).map fun m => { m with text := c :: m.text }
    else []

namespace Pattern

def sequence (qs : List Pattern) : Pattern := qs.foldr seq nothing

/-- The pattern as it is written. -/
def source : Pattern → String
  | nothing => ""
  | start => "^"
  | finish => "$"
  | one k => k.source
  | many k => k.source.push '*'
  | many1 k => k.source.push '+'
  | seq q r => q.source ++ r.source
  | optional q => "(?:" ++ q.source ++ ")?"
  | group _ q => "(" ++ q.source ++ ")"

/-- The matches at the front of a text, in the order in which they are tried. The text may stand
at the start of all or behind something. -/
def candidates : Pattern → Bool → List Char → List Match
  | nothing, _, s => [.here s]
  | start, atStart, s => if atStart then [.here s] else []
  | finish, _, s => if s.isEmpty then [.here s] else []
  | one _, _, [] => []
  | one k, _, c :: s => if k.test c then [⟨[c], s, []⟩] else []
  | many k, _, s => k.runs s ++ [.here s]
  | many1 k, _, s => k.runs s
  | seq q r, atStart, s => (q.candidates atStart s).flatMap fun m =>
    (r.candidates (atStart && m.text.isEmpty) m.rest).map m.before
  | optional q, atStart, s => q.candidates atStart s ++ [.here s]
  | group i q, atStart, s => (q.candidates atStart s).map fun m =>
    { m with groups := (i, m.text) :: m.groups }

/-- The first match at the first place where there is one. -/
def search (q : Pattern) (atStart : Bool) : List Char → Option Match
  | [] => (q.candidates atStart []).head?
  | c :: s => (q.candidates atStart (c :: s)).head?.or (q.search false s)

def find? (q : Pattern) (s : List Char) : Option Match := q.search true s

variable {q r : Pattern} {k : CharClass} {p : Char → Bool} {b : Bool} {s : List Char} {m : Match}

/-! ## Candidates -/

theorem mem_runs : m ∈ k.runs s ↔
    ∃ t u, s = t ++ u ∧ (t ≠ [] ∧ ∀ c ∈ t, k.test c = true) ∧ m = ⟨t, u, []⟩ := by
  induction s generalizing m with
  | nil => simp [CharClass.runs]
  | cons c s ih =>
    rw [CharClass.runs]
    constructor
    · split
      case isTrue hc =>
        simp only [List.mem_map, List.mem_append, List.mem_singleton]
        rintro ⟨n, hn | rfl, rfl⟩
        · obtain ⟨t, u, rfl, ⟨-, ht⟩, rfl⟩ := ih.1 hn
          exact ⟨c :: t, u, rfl, ⟨by simp, by simpa [hc] using ht⟩, rfl⟩
        · exact ⟨[c], s, rfl, ⟨by simp, by simpa using hc⟩, rfl⟩
      case isFalse => nofun
    · rintro ⟨_ | ⟨d, t⟩, u, hs, ⟨hne, ht⟩, rfl⟩
      · exact absurd rfl hne
      obtain ⟨rfl, rfl⟩ := List.cons.inj hs
      obtain ⟨hc, ht⟩ := List.forall_mem_cons.1 ht
      rw [if_pos hc]
      refine List.mem_map.2 ⟨⟨t, u, []⟩, List.mem_append.2 ?_, rfl⟩
      by_cases hnil : t = []
      · exact .inr (by rw [hnil]; exact List.mem_singleton_self _)
      · exact .inl (ih.2 ⟨t, u, rfl, ⟨hnil, ht⟩, rfl⟩)

/-- The pattern covers a text, and its groups hold the given parts of it. The text may stand at the
start of all or behind something, and at the end or in front of something. -/
def Covers : Pattern → Bool → Bool → List Char → List (Nat × List Char) → Prop
  | nothing, _, _, t, gs => t = [] ∧ gs = []
  | start, atStart, _, t, gs => atStart = true ∧ t = [] ∧ gs = []
  | finish, _, atEnd, t, gs => atEnd = true ∧ t = [] ∧ gs = []
  | one k, _, _, t, gs => ∃ c, k.test c = true ∧ t = [c] ∧ gs = []
  | many k, _, _, t, gs => (∀ c ∈ t, k.test c = true) ∧ gs = []
  | many1 k, _, _, t, gs => (t ≠ [] ∧ ∀ c ∈ t, k.test c = true) ∧ gs = []
  | seq q r, atStart, atEnd, t, gs => ∃ t₁ gs₁ t₂ gs₂,
    q.Covers atStart (atEnd && t₂.isEmpty) t₁ gs₁ ∧ r.Covers (atStart && t₁.isEmpty) atEnd t₂ gs₂ ∧
    t = t₁ ++ t₂ ∧ gs = gs₁ ++ gs₂
  | optional q, atStart, atEnd, t, gs => q.Covers atStart atEnd t gs ∨ t = [] ∧ gs = []
  | group i q, atStart, atEnd, t, gs => ∃ gs', q.Covers atStart atEnd t gs' ∧ gs = (i, t) :: gs'

/-- The candidates are the ways in which the pattern covers what stands at the front. -/
theorem mem_candidates_iff {t u : List Char} {gs : List (Nat × List Char)} :
    ⟨t, u, gs⟩ ∈ q.candidates b s ↔ s = t ++ u ∧ q.Covers b u.isEmpty t gs := by
  induction q generalizing b s t u gs with
  | nothing | start | finish => simp [candidates, Covers, Match.here]; grind
  | one k => cases s <;> simp [candidates, Covers] <;> grind
  | many k => simp [candidates, mem_runs, Covers, Match.here]; grind
  | many1 k => simp [candidates, mem_runs, Covers]
  | seq q r ihq ihr =>
    have hend (t u : List Char) : (t ++ u).isEmpty = (u.isEmpty && t.isEmpty) := by
      cases t <;> simp
    rw [candidates, List.mem_flatMap]
    constructor
    · rintro ⟨⟨t₁, u₁, gs₁⟩, hm₁, h⟩
      obtain ⟨⟨t₂, u₂, gs₂⟩, hm₂, hm⟩ := List.mem_map.1 h
      obtain ⟨rfl, hr⟩ := ihr.1 hm₂
      obtain ⟨rfl, hq⟩ := ihq.1 hm₁
      cases hm
      exact ⟨(List.append_assoc ..).symm, t₁, gs₁, t₂, gs₂, hend t₂ u₂ ▸ hq, hr, rfl, rfl⟩
    · rintro ⟨rfl, t₁, gs₁, t₂, gs₂, hq, hr, rfl, rfl⟩
      exact ⟨⟨t₁, t₂ ++ u, gs₁⟩, ihq.2 ⟨List.append_assoc .., hend t₂ u ▸ hq⟩,
        List.mem_map.2 ⟨⟨t₂, u, gs₂⟩, ihr.2 ⟨rfl, hr⟩, rfl⟩⟩
  | optional q ih => simp [candidates, Covers, ih, Match.here]; grind
  | group i q ih =>
    rw [candidates, List.mem_map]
    constructor
    · rintro ⟨⟨t', u', gs'⟩, hq, hm⟩
      cases hm
      obtain ⟨hs, hq⟩ := ih.1 hq
      exact ⟨hs, gs', hq, rfl⟩
    · rintro ⟨hs, gs', hq, rfl⟩
      exact ⟨⟨t, u, gs'⟩, ih.2 ⟨hs, hq⟩, rfl⟩

/-- The first candidate is `m`, and the others leave more of the run to what follows them. -/
def Leads (q : Pattern) (p : Char → Bool) (b : Bool) (s : List Char) (m : Match) : Prop :=
  ∃ ms, q.candidates b s = m :: ms ∧ ∀ n ∈ ms, ¬Stops p n.rest

section Runs

/-- The longest of the runs of a class. -/
def longest (k : CharClass) (s : List Char) : Match :=
  ⟨s.takeWhile k.test, s.dropWhile k.test, []⟩

variable {c : Char}

theorem Leads.cons (hc : k.test c = true) (h : (many k).Leads k.test b s (longest k s)) :
    (many1 k).Leads k.test b (c :: s) (longest k (c :: s)) := by
  obtain ⟨ms, hms, hrest⟩ := h
  rw [candidates] at hms
  refine ⟨ms.map fun m => { m with text := c :: m.text }, ?_, by simpa using hrest⟩
  rw [candidates, CharClass.runs, if_pos hc, hms]
  simp [longest, hc]

theorem leads_many (k : CharClass) (b : Bool) (s : List Char) :
    (many k).Leads k.test b s (longest k s) := by
  induction s with
  | nil => exact ⟨[], rfl, by simp⟩
  | cons c s ih =>
    by_cases hc : k.test c
    · obtain ⟨ms, hms, hrest⟩ := Leads.cons hc ih
      rw [candidates] at hms
      refine ⟨ms ++ [.here (c :: s)], by rw [candidates, hms]; rfl, ?_⟩
      simpa [or_imp, forall_and, Match.here, hc] using hrest
    · exact ⟨[], by simp [candidates, longest, CharClass.runs, hc, Match.here], by simp⟩

theorem leads_many1 (h : s.takeWhile k.test ≠ []) (b : Bool) :
    (many1 k).Leads k.test b s (longest k s) := by
  cases s with
  | nil => exact absurd rfl h
  | cons c s =>
    have hc : k.test c = true := by
      by_contra hc
      simp [hc] at h
    exact (leads_many k b s).cons hc

end Runs

theorem Leads.group (h : q.Leads p b s m) (i : Nat) :
    (group i q).Leads p b s { m with groups := (i, m.text) :: m.groups } := by
  obtain ⟨ms, hms, hrest⟩ := h
  exact ⟨ms.map fun m => { m with groups := (i, m.text) :: m.groups },
    by rw [candidates, hms]; rfl, by simpa using hrest⟩

/-! ## What is read first -/

/-- What groups hold, and what follows. -/
abbrev Captures := List (Nat × List Char) × List Char

/-- What the first candidate captures. -/
def first? (q : Pattern) (b : Bool) (s : List Char) : Option Captures :=
  (q.candidates b s).head?.map fun m => (m.groups, m.rest)

/-- The pattern captures at every place what the function finds there. -/
def Reads (q : Pattern) (f : List Char → Option Captures) : Prop := ∀ b s, q.first? b s = f s

/-- The pattern never fails. -/
def Takes (q : Pattern) (f : List Char → Captures) : Prop := q.Reads fun s => some (f s)

variable {f : List Char → Option Captures} {g : List Char → Captures}

theorem first?_seq (hr : r.Reads f) (b : Bool) (s : List Char) : (seq q r).first? b s =
    (q.candidates b s).findSome? fun m =>
      (f m.rest).map fun x => (m.groups ++ x.1, x.2) := by
  have hbehind (m : Match) : ((r.candidates (b && m.text.isEmpty) m.rest).map m.before).head?.map
      (fun m => (m.groups, m.rest)) = (f m.rest).map fun x => (m.groups ++ x.1, x.2) := by
    rw [← hr (b && m.text.isEmpty) m.rest, first?, List.head?_map, Option.map_map, Option.map_map]
    rfl
  rw [first?, candidates, List.head?_flatMap, List.map_findSome?]
  simp only [Function.comp_def, hbehind]

/-- None of a run is given back where what comes behind matches at once, and where it never does in
front of a character of the class. -/
theorem Leads.first?_seq (h : q.Leads p b s m) (hr : r.Reads f)
    (hf : (f m.rest).isSome ∨ ∀ u, ¬Stops p u → f u = none) :
    (seq q r).first? b s = (f m.rest).map fun x => (m.groups ++ x.1, x.2) := by
  obtain ⟨ms, hms, hrest⟩ := h
  rw [Pattern.first?_seq hr, hms, List.findSome?_cons]
  rcases hf with hsome | hnone
  · obtain ⟨x, hx⟩ := Option.isSome_iff_exists.1 hsome
    rw [hx]
    rfl
  · have hothers : ms.findSome? (fun n => (f n.rest).map fun x => (n.groups ++ x.1, x.2)) = none :=
      List.findSome?_eq_none_iff.2 fun n hn => by rw [hnone _ (hrest n hn)]; rfl
    rw [hothers]
    cases f m.rest <;> rfl

theorem Reads.many_seq (hr : r.Reads f) (hf : ∀ u, ¬Stops k.test u → f u = none) :
    (Pattern.seq (many k) r).Reads fun s => f (s.dropWhile k.test) := by
  intro b s
  rw [(leads_many k b s).first?_seq hr (.inr hf)]
  exact Option.map_id'

theorem Reads.group_many_seq (i : Nat) (hr : r.Reads f)
    (hf : ∀ u, ¬Stops k.test u → f u = none) :
    (Pattern.seq (group i (many k)) r).Reads fun s =>
      (f (s.dropWhile k.test)).map fun x => ((i, s.takeWhile k.test) :: x.1, x.2) :=
  fun b s => ((leads_many k b s).group i).first?_seq hr (.inr hf)

theorem Reads.group_many1_seq (i : Nat) (hr : r.Reads f)
    (hf : (∀ u, (f u).isSome) ∨ ∀ u, ¬Stops k.test u → f u = none) :
    (Pattern.seq (group i (many1 k)) r).Reads fun s =>
      if s.takeWhile k.test = [] then none
      else (f (s.dropWhile k.test)).map fun x => ((i, s.takeWhile k.test) :: x.1, x.2) := by
  intro b s
  dsimp only
  split
  case isTrue h =>
    have hnone : k.runs s = [] := by
      cases s with
      | nil => rfl
      | cons c s => exact if_neg fun hc => by simp [hc] at h
    rw [Pattern.first?_seq hr, candidates, candidates, hnone]
    rfl
  case isFalse h =>
    exact ((leads_many1 h b).group i).first?_seq hr (hf.imp_left fun hf => hf _)

/-- What comes behind never fails, so the first candidate stays. -/
theorem Reads.seq (hq : q.Reads f) (hr : r.Takes g) :
    (seq q r).Reads fun s => (f s).map fun x => (x.1 ++ (g x.2).1, (g x.2).2) := by
  intro b s
  dsimp only
  rw [first?_seq hr, ← hq b s, first?]
  cases q.candidates b s <;> rfl

theorem Takes.seq {h : List Char → Captures} (hq : q.Takes g) (hr : r.Takes h) :
    (seq q r).Takes fun s => ((g s).1 ++ (h (g s).2).1, (h (g s).2).2) :=
  Reads.seq hq hr

theorem takes_nothing : nothing.Takes fun s => ([], s) := fun _ _ => rfl

theorem takes_many (k : CharClass) : (many k).Takes fun s => ([], s.dropWhile k.test) := by
  intro b s
  obtain ⟨ms, hms, -⟩ := leads_many k b s
  rw [first?, hms]
  rfl

theorem Reads.optional (hq : q.Reads f) : (optional q).Takes fun s => (f s).getD ([], s) := by
  intro b s
  simp only [first?, candidates, ← hq b s]
  cases q.candidates b s <;> rfl

theorem Reads.one_seq (k : CharClass) (hr : r.Reads f) : (Pattern.seq (one k) r).Reads fun
    | [] => none
    | c :: s => if k.test c then f s else none := by
  intro b s
  rw [first?_seq hr]
  cases s with
  | nil => rfl
  | cons c s =>
    by_cases hc : k.test c <;> simp [candidates, hc]

/-! ## Where a pattern is found -/

theorem candidates_start (q : Pattern) (b : Bool) (s : List Char) :
    (seq start q).candidates b s = if b then q.candidates true s else [] := by
  cases b <;> simp [candidates]

/-- A pattern that starts with the text is found at its start or nowhere. -/
theorem find?_start (q : Pattern) (s : List Char) :
    (seq start q).find? s = (q.candidates true s).head? := by
  have hlater (s : List Char) : (seq start q).search false s = none := by
    induction s with
    | nil => rw [search, candidates_start]; rfl
    | cons c s ih => rw [search, candidates_start, ih]; rfl
  cases s with
  | nil => rw [find?, search, candidates_start]; rfl
  | cons c s => rw [find?, search, hlater, candidates_start, if_pos rfl, Option.or_none]

end Pattern

end AudioFeatures
