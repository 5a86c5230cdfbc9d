import AudioFeatures.Proofs.Condition.Grammar

/-! # The reader and the grammar

The reader finds a derivation wherever it meets no fault, and it finds every derivation: fuel for
nine passes a token is enough, and what follows an expression is left where it cannot continue it.
-/

namespace AudioFeatures.Condition

variable {l : Level} {t : Token} {f : Expr → Expr → Expr} {s u rest ts : List Token}
  {a b e : Expr} {ls : Links} {n : Nat}

namespace Expr

theorem read_of_joining (hl : l.joining = true) (n : Nat) (ts : List Token) :
    read (n + 1) l ts = readMore n l (read n l.next ts).1 (read n l.next ts).2 := by
  cases l <;> first | rfl | cases hl

theorem read_negation (ht : t.isNegation = true) (n : Nat) (ts : List Token) :
    read (n + 1) .negation (t :: ts) =
      (.negation (read n .negation ts).1, (read n .negation ts).2) := by
  simp [read, ht]

theorem read_negation_of_not (ht : t.isNegation = false) (n : Nat) (ts : List Token) :
    read (n + 1) .negation (t :: ts) = read n .comparison (t :: ts) := by
  simp [read, ht]

theorem read_sign_of_ne (hs : t ≠ .symbol (.arithmetic .subtract))
    (ha : t ≠ .symbol (.arithmetic .add)) (n : Nat) (ts : List Token) :
    read (n + 1) .sign (t :: ts) = read n .primary (t :: ts) := by
  rw [read]
  · rintro ts' ⟨⟩
    exact hs rfl
  · rintro ts' ⟨⟩
    exact ha rfl

theorem read_primary_of_ne (ht : t ≠ .opening) (n : Nat) (ts : List Token) :
    read (n + 1) .primary (t :: ts) = ofToken t ts := by
  cases t <;> first | rfl | exact absurd rfl ht

theorem read_parentheses (h : read n .either ts = (a, .closing :: rest)) :
    read (n + 1) .primary (.opening :: ts) = (a, rest) := by
  rw [read, h]

theorem read_unclosed (h : read n .either ts = (a, rest)) (hr : rest.head? ≠ some .closing) :
    read (n + 1) .primary (.opening :: ts) = (.unclosed a, []) := by
  rw [read, h]
  split
  · rename_i heq
    cases heq
    exact absurd rfl hr
  · rename_i heq
    cases heq
    rfl

theorem read_comparison_nil (h : read n .sum ts = (a, u)) (h' : readLinks n u = (.nil, rest)) :
    read (n + 1) .comparison ts = (a, rest) := by
  rw [read, h]
  simp only [h']

theorem read_comparison_links (h : read n .sum ts = (a, u)) (h' : readLinks n u = (ls, rest))
    (hls : ls ≠ .nil) : read (n + 1) .comparison ts = (.chain a ls, rest) := by
  rw [read, h]
  cases ls with
  | nil => exact absurd rfl hls
  | cons op b ls => simp only [h']

theorem readMore_join (h : Joins l t f) (n : Nat) (a : Expr) (ts : List Token) :
    readMore (n + 1) l a (t :: ts) =
      readMore n l (f a (read n l.next ts).1) (read n l.next ts).2 := by
  rw [readMore, join?_eq_some_iff.2 h]

theorem readMore_of_not_joins (h : ∀ f, ¬Joins l t f) (n : Nat) (a : Expr) (ts : List Token) :
    readMore n l a (t :: ts) = (a, t :: ts) := by
  cases n with
  | zero => rfl
  | succ n =>
    rw [readMore]
    cases hf : l.join? t with
    | none => rfl
    | some f => exact absurd (join?_eq_some_iff.1 hf) (h f)

theorem readMore_of_endsAt (h : EndsAt l rest) (n : Nat) (a : Expr) :
    readMore n l a rest = (a, rest) := by
  cases rest with
  | nil => cases n <;> rfl
  | cons t rest =>
    refine readMore_of_not_joins (fun f hf => ?_) n a rest
    exact Nat.lt_irrefl _ (h t rfl l hf.continues?)

theorem readLinks_of_endsAt (h : EndsAt .comparison rest) (n : Nat) :
    readLinks n rest = (.nil, rest) := by
  unfold readLinks
  split
  · exact absurd (h _ rfl _ rfl) (Nat.lt_irrefl _)
  · rfl

end Expr

/-! ## Completeness -/

/-- At a joining level the reader comes to `e` and goes on from there. It spends no more fuel than
there are tokens, since each of them brings at most one more operand. -/
def ReadsOn (l : Level) (s : List Token) (e : Expr) : Prop :=
  ∀ n rest, 9 * s.length + 8 ≤ n + l.rank + 1 → EndsAt l.next rest →
    ∃ m, n ≤ m + s.length ∧
      Expr.readMore n l (Expr.read n l.next (s ++ rest)).1 (Expr.read n l.next (s ++ rest)).2 =
        Expr.readMore m l e rest

/-- What a derivation says about the reader. A level takes one unit of fuel, so a tighter level can
do with less. -/
structure Reads (l : Level) (s : List Token) (e : Expr) : Prop where
  read : ∀ n rest, 9 * s.length + 8 ≤ n + l.rank → EndsAt l rest →
    Expr.read n l (s ++ rest) = (e, rest)
  more : l.joining = true → ReadsOn l s e

theorem EndsAt.next (h : EndsAt l rest) : EndsAt l.next rest := h.mono (by cases l <;> decide)

theorem Level.rank_le (l : Level) : l.rank ≤ 7 := by cases l <;> decide

/-- At a joining level the second part is enough. -/
theorem Reads.of_more (hl : l.joining = true) (h : ReadsOn l s e) : Reads l s e := by
  refine ⟨fun n rest hn hr => ?_, fun _ => h⟩
  obtain ⟨n, rfl⟩ : ∃ k, n = k + 1 := ⟨n - 1, by have := l.rank_le; omega⟩
  obtain ⟨m, -, hm⟩ := h n rest (by omega) hr.next
  rw [Expr.read_of_joining hl, hm, Expr.readMore_of_endsAt hr]

/-- At the other levels the first part is all. -/
theorem Reads.of_read (hl : l.joining = false)
    (h : ∀ n rest, 9 * s.length + 8 ≤ n + l.rank + 1 → EndsAt l rest →
      Expr.read (n + 1) l (s ++ rest) = (e, rest)) : Reads l s e := by
  refine ⟨fun n rest hn hr => ?_, fun h => absurd (hl.symm.trans h) (by simp)⟩
  obtain ⟨n, rfl⟩ : ∃ k, n = k + 1 := ⟨n - 1, by have := l.rank_le; omega⟩
  exact h n rest (by omega) hr

theorem Reads.join (hj : Joins l t f) (ha : Reads l s a) (hb : Reads l.next u b) :
    Reads l (s ++ t :: u) (f a b) := by
  refine .of_more hj.joining fun n rest hn hr => ?_
  have hrank := Level.rank_next hj.ne_primary
  have hbound := l.next.rank_le
  simp only [List.length_append, List.length_cons] at hn ⊢
  -- the operands on the left are joined first; the fuel they leave suffices for the right one
  obtain ⟨m, hm, h⟩ := ha.more hj.joining n (t :: (u ++ rest)) (by omega) hj.endsAt
  obtain ⟨m, rfl⟩ : ∃ k, m = k + 1 := ⟨m - 1, by omega⟩
  refine ⟨m, by omega, ?_⟩
  rw [List.append_assoc, List.cons_append, h, Expr.readMore_join hj,
    hb.read m rest (by omega) hr]

theorem Reads.tighter (hl : l ≠ .primary) (hs : ∃ t u, s = t :: u ∧ t.starts l.next)
    (h : Reads l.next s a) : Reads l s a := by
  have hrank := Level.rank_next hl
  by_cases hj : l.joining = true
  · refine .of_more hj fun n rest hn hr => ⟨n, by omega, ?_⟩
    rw [h.read n rest (by omega) hr]
  refine .of_read (by simpa using hj) fun n rest hn hr => ?_
  have hread := h.read n rest (by omega) hr.next
  obtain ⟨t, u, rfl, hnot, hop⟩ := hs
  cases l with
  | either | both | sum | term => exact absurd rfl hj
  | primary => exact absurd rfl hl
  | negation => exact (Expr.read_negation_of_not (hnot (by decide)) n _).trans hread
  | comparison => exact Expr.read_comparison_nil hread (Expr.readLinks_of_endsAt hr n)
  | sign => exact (Expr.read_sign_of_ne (hop (by decide) _) (hop (by decide) _) n _).trans hread

theorem Reads.token (ht : t ≠ .opening) (h : ∀ rest, Expr.ofToken t rest = (e, rest)) :
    Reads .primary [t] e :=
  .of_read rfl fun n rest _ _ => (Expr.read_primary_of_ne ht n rest).trans (h rest)

theorem Reads.negation (ht : t ∈ [Token.word "not", .symbol .negation])
    (h : Reads .negation s a) : Reads .negation (t :: s) (.negation a) := by
  refine .of_read rfl fun n rest hn hr => ?_
  rw [List.length_cons] at hn
  rw [List.cons_append, Expr.read_negation (Token.isNegation_iff.2 ht),
    h.read n rest (by omega) hr]

theorem Reads.minus (h : Reads .sign s a) :
    Reads .sign (.symbol (.arithmetic .subtract) :: s) (.negate a) := by
  refine .of_read rfl fun n rest hn hr => ?_
  rw [List.length_cons] at hn
  rw [List.cons_append, Expr.read, h.read n rest (by omega) hr]

theorem Reads.plus (h : Reads .sign s a) : Reads .sign (.symbol (.arithmetic .add) :: s) a := by
  refine .of_read rfl fun n rest hn hr => ?_
  rw [List.length_cons] at hn
  rw [List.cons_append, Expr.read, h.read n rest (by omega) hr]

theorem Reads.parentheses (h : Reads .either s a) :
    Reads .primary (.opening :: (s ++ [.closing])) a := by
  refine .of_read rfl fun n rest hn _ => ?_
  simp only [List.length_cons, List.length_append, List.length_nil, Level.rank] at hn
  have hread := h.read n (.closing :: rest) (by simp only [Level.rank]; omega)
    (endsAt_cons nofun)
  rw [List.cons_append, List.append_assoc]
  exact Expr.read_parentheses hread

theorem Expr.ofToken_variable {name : String} (hn : name ∉ reserved) (rest : List Token) :
    ofToken (.word name) rest = (.variable name, rest) := by
  have hp : (Token.word name).primary = .variable name := by
    unfold Token.primary
    split <;> simp_all [reserved]
  rw [ofToken, hp]

/-- What a derivation of comparisons says about the reader. -/
def ReadsLinks (s : List Token) (ls : Links) : Prop :=
  ∀ n rest, 9 * s.length ≤ n → EndsAt .comparison rest →
    Expr.readLinks n (s ++ rest) = (ls, rest)

/-- Comparisons end an operand before them. -/
theorem DerivesLinks.endsAt (h : DerivesLinks u ls) (hr : EndsAt .comparison rest) :
    EndsAt .sum (u ++ rest) := by
  cases h with
  | nil => exact hr.next
  | cons => exact endsAt_cons (by rintro k ⟨⟩; decide)

theorem ReadsLinks.cons {op : Comparison} (ha : Reads .sum s a) (hu : DerivesLinks u ls)
    (hls : ReadsLinks u ls) :
    ReadsLinks (.symbol (.comparison op) :: (s ++ u)) (.cons op a ls) := by
  intro n rest hn hr
  simp only [List.length_cons, List.length_append] at hn
  obtain ⟨n, rfl⟩ : ∃ k, n = k + 1 := ⟨n - 1, by omega⟩
  have ha := ha.read n (u ++ rest) (by omega) (hu.endsAt hr)
  have hls := hls n rest (by omega) hr
  rw [List.cons_append, List.append_assoc, Expr.readLinks, ha]
  simp only [hls]

theorem Reads.chain (ha : Reads .sum s a) (hu : DerivesLinks u ls) (hls : ReadsLinks u ls)
    (hne : ls ≠ .nil) : Reads .comparison (s ++ u) (.chain a ls) := by
  refine .of_read rfl fun n rest hn hr => ?_
  simp only [List.length_append, Level.rank] at hn
  have ha := ha.read n (u ++ rest) (by simp only [Level.rank]; omega) (hu.endsAt hr)
  have hls := hls n rest (by omega) hr
  rw [List.append_assoc, Expr.read_comparison_links ha hls hne]

mutual

theorem Derives.reads {l : Level} {s : List Token} {e : Expr} : Derives l s e → Reads l s e
  | @Derives.join _ _ _ _ _ _ _ hj h h' => h.reads.join hj h'.reads
  | .negation ht h => h.reads.negation ht
  | .chain h h' hls => h.reads.chain h' h'.reads hls
  | .minus h => h.reads.minus
  | .plus h => h.reads.plus
  | .int _ | .float _ => .token nofun fun _ => rfl
  | .truth hn | .falsity hn => .token nofun fun _ => by
    simp only [List.mem_cons, List.not_mem_nil, or_false] at hn
    rcases hn with rfl | rfl <;> rfl
  | .variable hn => .token nofun fun rest => Expr.ofToken_variable hn rest
  | .parentheses h => h.reads.parentheses
  | .tighter hl h => h.reads.tighter hl h.starts

theorem DerivesLinks.reads {s : List Token} {ls : Links} : DerivesLinks s ls → ReadsLinks s ls
  | .nil => fun n _ _ hr => Expr.readLinks_of_endsAt hr n
  | .cons h h' => .cons h.reads h' h'.reads

end

/-! ## Soundness -/

theorem Expr.fault?_of_readMore (n : Nat) (a : Expr) (ts : List Token)
    (h : (readMore n l a ts).1.fault? = none) : a.fault? = none := by
  induction n generalizing a ts with
  | zero => exact h
  | succ n ih =>
    cases ts with
    | nil => exact h
    | cons t ts =>
      by_cases hj : ∃ f, Joins l t f
      · obtain ⟨f, hf⟩ := hj
        rw [readMore_join hf] at h
        have h := ih _ _ h
        rw [hf.fault?, Option.or_eq_none_iff] at h
        exact h.1
      · rwa [readMore_of_not_joins (fun f hf => hj ⟨f, hf⟩)] at h

theorem Token.derives_primary (h : t.primary.fault? = none) : Derives .primary [t] t.primary := by
  unfold Token.primary at h ⊢
  split at h <;> try cases h
  · exact .int _
  · exact .float _
  · exact .truth (by simp)
  · exact .truth (by simp)
  · exact .falsity (by simp)
  · exact .falsity (by simp)
  · exact .variable (by simp_all [reserved])

theorem Expr.derives_ofToken (h : (ofToken t ts).1.fault? = none) :
    Derives .primary [t] (ofToken t ts).1 ∧ (ofToken t ts).2 = ts := by
  unfold ofToken at h ⊢
  split at h
  · cases h
  · exact ⟨Token.derives_primary h, rfl⟩

/-- An outcome of the reader on `ts`, after the tokens `s`: it meets a fault, or together with
`s` the tokens that it takes are an expression of the level. -/
def Finds (l : Level) (s ts : List Token) (r : Expr × List Token) : Prop :=
  r.1.fault? = none → ∃ u, ts = u ++ r.2 ∧ Derives l (s ++ u) r.1

def FindsLinks (ts : List Token) (r : Links × List Token) : Prop :=
  r.1.fault? = none → ∃ u, ts = u ++ r.2 ∧ DerivesLinks u r.1

structure Sound (n : Nat) : Prop where
  read : ∀ l ts, Finds l [] ts (Expr.read n l ts)
  more : ∀ l s a ts, l.joining = true → Derives l s a → Finds l s ts (Expr.readMore n l a ts)
  links : ∀ ts, FindsLinks ts (Expr.readLinks n ts)

theorem Finds.of_fault {r : Expr × List Token} (h : r.1.fault? ≠ none) : Finds l s ts r :=
  fun h' => absurd h' h

theorem Finds.tighter {r : Expr × List Token} (hl : l ≠ .primary) (h : Finds l.next [] ts r) :
    Finds l [] ts r := by
  intro hr
  obtain ⟨u, hu, h⟩ := h hr
  exact ⟨u, hu, .tighter hl h⟩

/-- An outcome under one operator in front. -/
theorem Finds.operator {g : Expr → Expr} {r : Expr × List Token} (h : Finds l [] ts r)
    (hg : (g r.1).fault? = r.1.fault?) (hd : ∀ s, Derives l s r.1 → Derives l (t :: s) (g r.1)) :
    Finds l [] (t :: ts) (g r.1, r.2) := by
  intro hr
  obtain ⟨u, hu, h⟩ := h (hg.symm.trans hr)
  exact ⟨t :: u, by rw [hu]; rfl, hd u h⟩

theorem Sound.read_joining (h : Sound n) (hl : l.joining = true) (ts : List Token) :
    Finds l [] ts (Expr.read (n + 1) l ts) := by
  have hp : l ≠ .primary := by rintro rfl; cases hl
  rw [Expr.read_of_joining hl]
  intro hr
  obtain ⟨s, hs, ha⟩ := h.read l.next ts (Expr.fault?_of_readMore _ _ _ hr)
  obtain ⟨u, hu, hb⟩ := h.more l s _ _ hl (.tighter hp ha) hr
  exact ⟨s ++ u, by rw [List.append_assoc, ← hu, ← hs], hb⟩

theorem Sound.read_negation (h : Sound n) (ts : List Token) :
    Finds .negation [] ts (Expr.read (n + 1) .negation ts) := by
  have htighter := fun ts => (h.read .comparison ts).tighter (l := .negation) nofun
  rcases ts with _ | ⟨t, ts⟩
  · exact htighter []
  cases ht : t.isNegation with
  | true =>
    rw [Expr.read_negation ht]
    exact (h.read .negation ts).operator rfl fun s => .negation (Token.isNegation_iff.1 ht)
  | false =>
    rw [Expr.read_negation_of_not ht]
    exact htighter (t :: ts)

theorem Sound.read_sign (h : Sound n) (ts : List Token) :
    Finds .sign [] ts (Expr.read (n + 1) .sign ts) := by
  have htighter := fun ts => (h.read .primary ts).tighter (l := .sign) nofun
  rcases ts with _ | ⟨t, ts⟩
  · exact htighter []
  by_cases hs : t = .symbol (.arithmetic .subtract)
  · subst hs
    exact (h.read .sign ts).operator rfl fun s => .minus
  by_cases ha : t = .symbol (.arithmetic .add)
  · subst ha
    exact (h.read .sign ts).operator (g := id) rfl fun s => .plus
  rw [Expr.read_sign_of_ne hs ha]
  exact htighter (t :: ts)

theorem Sound.read_comparison (h : Sound n) (ts : List Token) :
    Finds .comparison [] ts (Expr.read (n + 1) .comparison ts) := by
  have hfirst := h.read .sum ts
  have hlinks := h.links (Expr.read n .sum ts).2
  rcases ha : Expr.read n .sum ts with ⟨a, u⟩
  rcases hls : Expr.readLinks n u with ⟨ls, rest⟩
  rw [ha] at hfirst hlinks
  simp only [hls] at hlinks
  by_cases hnil : ls = .nil
  · subst hnil
    -- no comparison was read, so the expression is the first operand
    obtain ⟨v, hv, hd⟩ := hlinks rfl
    cases hd
    rw [Expr.read_comparison_nil ha hls, ← show u = rest from hv]
    exact hfirst.tighter nofun
  · rw [Expr.read_comparison_links ha hls hnil]
    intro hr
    obtain ⟨hr, hr'⟩ := Option.or_eq_none_iff.1 hr
    obtain ⟨s, hs, hd⟩ := hfirst hr
    obtain ⟨v, hv, hd'⟩ := hlinks hr'
    exact ⟨s ++ v, by rw [List.append_assoc, ← hv]; exact hs, .chain (s := s) hd hd' hnil⟩

theorem Sound.read_primary (h : Sound n) (ts : List Token) :
    Finds .primary [] ts (Expr.read (n + 1) .primary ts) := by
  rcases ts with _ | ⟨t, ts⟩
  · exact .of_fault nofun
  by_cases ht : t = .opening
  · subst ht
    have ha := h.read .either ts
    rcases hread : Expr.read n .either ts with ⟨a, rest⟩
    rw [hread] at ha
    by_cases hclosing : rest.head? = some .closing
    · obtain ⟨rest, rfl⟩ := List.head?_eq_some_iff.1 hclosing
      rw [Expr.read_parentheses hread]
      intro hr
      obtain ⟨s, hs, hd⟩ := ha hr
      refine ⟨.opening :: (s ++ [.closing]), by simp [show ts = _ from hs], ?_⟩
      exact Derives.parentheses (s := s) hd
    · rw [Expr.read_unclosed hread hclosing]
      refine .of_fault ?_
      simp [Expr.fault?]
  rw [Expr.read_primary_of_ne ht]
  intro hr
  obtain ⟨hd, hrest⟩ := Expr.derives_ofToken hr
  exact ⟨[t], by rw [hrest]; rfl, hd⟩

theorem Sound.readMore (h : Sound n) (hl : l.joining = true) (ha : Derives l s a)
    (ts : List Token) : Finds l s ts (Expr.readMore (n + 1) l a ts) := by
  have hstop : Finds l s ts (a, ts) := fun _ => ⟨[], rfl, by rwa [List.append_nil]⟩
  rcases ts with _ | ⟨t, ts⟩
  · exact hstop
  by_cases hj : ∃ f, Joins l t f
  · obtain ⟨f, hf⟩ := hj
    rw [Expr.readMore_join hf]
    intro hr
    have hfault := Expr.fault?_of_readMore _ _ _ hr
    rw [hf.fault?, Option.or_eq_none_iff] at hfault
    obtain ⟨u, hu, hb⟩ := h.read l.next ts hfault.2
    obtain ⟨v, hv, hd⟩ := h.more l _ _ _ hl (.join hf ha hb) hr
    refine ⟨t :: u ++ v, ?_, ?_⟩
    · rw [List.append_assoc, ← hv, List.cons_append, ← hu]
    · simpa using hd
  · rw [Expr.readMore_of_not_joins fun f hf => hj ⟨f, hf⟩]
    exact hstop

theorem Sound.readLinks (h : Sound n) (ts : List Token) :
    FindsLinks ts (Expr.readLinks (n + 1) ts) := by
  unfold Expr.readLinks
  split
  · rename_i op ts heq
    cases heq
    intro hr
    obtain ⟨hr, hr'⟩ := Option.or_eq_none_iff.1 hr
    obtain ⟨s, hs, hd⟩ := h.read .sum ts hr
    obtain ⟨u, hu, hd'⟩ := h.links _ hr'
    refine ⟨.symbol (.comparison op) :: (s ++ u), ?_, .cons (s := s) hd hd'⟩
    rw [List.cons_append, List.append_assoc, ← hu]
    exact congrArg _ hs
  · exact fun _ => ⟨[], rfl, .nil⟩

theorem sound (n : Nat) : Sound n := by
  induction n with
  | zero =>
    refine ⟨fun _ _ => .of_fault nofun, fun l s a ts _ ha _ => ⟨[], rfl, ?_⟩,
      fun _ _ => ⟨[], rfl, ?_⟩⟩
    · rwa [List.append_nil]
    · exact .nil
  | succ n h =>
    refine ⟨fun l ts => ?_, fun l s a ts hl ha => h.readMore hl ha ts, h.readLinks⟩
    cases l with
    | either | both | sum | term => exact h.read_joining rfl ts
    | negation => exact h.read_negation ts
    | comparison => exact h.read_comparison ts
    | sign => exact h.read_sign ts
    | primary => exact h.read_primary ts

/-- The reader takes all tokens and meets no fault exactly for the expressions of the grammar. -/
theorem ofTokens_eq_iff :
    Expr.ofTokens ts = (e, []) ∧ e.fault? = none ↔ Derives .either ts e := by
  constructor
  · rintro ⟨h, he⟩
    have hfinds := (sound (9 * ts.length + 9)).read .either ts
    rw [← Expr.ofTokens, h] at hfinds
    obtain ⟨s, hs, hd⟩ := hfinds he
    rwa [show ts = s ++ [] from hs, List.append_nil]
  · intro h
    refine ⟨?_, h.fault?⟩
    have := h.reads.read (9 * ts.length + 9) [] (by omega) endsAt_nil
    rwa [List.append_nil] at this

theorem Derives.unique (h : Derives .either ts a) (h' : Derives .either ts b) : a = b := by
  have ha := (ofTokens_eq_iff.2 h).1
  have hb := (ofTokens_eq_iff.2 h').1
  exact (Prod.mk.inj (ha.symm.trans hb)).1

end AudioFeatures.Condition
