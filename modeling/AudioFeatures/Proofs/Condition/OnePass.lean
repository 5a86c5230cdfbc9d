import AudioFeatures.Proofs.Condition.Results

/-! # One pass and the tree

Reading and evaluating in one pass comes to what reading a tree and evaluating it comes to. Pass and
reader spend their fuel alike, so at every level they can be compared step by step. Wherever a pass
stops, with a value or with a fault, it is inside as many operands that are passed over as before.
-/

namespace AudioFeatures.Condition

variable {l : Level} {t : Token} {f : Expr → Expr → Expr} {ts us : List Token} {a : Expr}
  {n k : Nat} {v : Value} {r : Except Fault Value} {op : Arithmetic}

/-! ## The operators of the levels -/

theorem joins_either_iff : Joins .either t f ↔ t.operator? = some .either ∧ f = .either := by
  constructor
  · rintro (_ | _) <;> exact ⟨rfl, rfl⟩
  · rintro ⟨h, rfl⟩
    unfold Token.operator? at h
    split at h <;> cases h <;> constructor

theorem joins_both_iff : Joins .both t f ↔ t.operator? = some .both ∧ f = .both := by
  constructor
  · rintro (_ | _) <;> exact ⟨rfl, rfl⟩
  · rintro ⟨h, rfl⟩
    unfold Token.operator? at h
    split at h <;> cases h <;> constructor

/-- The other operators have one spelling. -/
theorem operator?_eq_some_iff {s : Symbol} (hs : s ∉ [.either, .both, .negation]) :
    t.operator? = some s ↔ t = .symbol s := by
  constructor
  · intro h
    unfold Token.operator? at h
    split at h <;> cases h <;> first | rfl | simp at hs
  · rintro rfl
    rfl

theorem joins_sum_iff :
    Joins .sum t f ↔ ∃ op, t.operator?.bind Symbol.additive? = some op ∧ f = .arithmetic op := by
  constructor
  · rintro (_ | _) <;> exact ⟨_, rfl, rfl⟩
  · rintro ⟨op, h, rfl⟩
    obtain ⟨s, hs, hop⟩ := Option.bind_eq_some_iff.1 h
    unfold Symbol.additive? at hop
    split at hop <;> cases hop <;> cases (operator?_eq_some_iff (by simp)).1 hs <;> constructor

theorem joins_term_iff :
    Joins .term t f ↔
      ∃ op, t.operator?.bind Symbol.multiplicative? = some op ∧ f = .arithmetic op := by
  constructor
  · rintro (_ | _) <;> exact ⟨_, rfl, rfl⟩
  · rintro ⟨op, h, rfl⟩
    obtain ⟨s, hs, hop⟩ := Option.bind_eq_some_iff.1 h
    unfold Symbol.multiplicative? at hop
    split at hop <;> cases hop
    cases (operator?_eq_some_iff (by simp)).1 hs
    cases op <;> first | constructor | simp at *

theorem isNegation_iff_operator? : t.isNegation = true ↔ t.operator? = some .negation := by
  rw [Token.isNegation_iff]
  constructor
  · intro h
    simp only [List.mem_cons, List.not_mem_nil, or_false] at h
    rcases h with rfl | rfl <;> rfl
  · intro h
    unfold Token.operator? at h
    split at h <;> cases h <;> simp

/-! ## The reader, part by part -/

theorem Expr.read_comparison (n : Nat) (ts : List Token) :
    read (n + 1) .comparison ts =
      ((readLinks n (read n .sum ts).2).1.after (read n .sum ts).1,
        (readLinks n (read n .sum ts).2).2) := by
  rcases ha : read n .sum ts with ⟨a, us⟩
  rcases hls : readLinks n us with ⟨_ | ⟨op, b, ls⟩, rest⟩
  · exact read_comparison_nil ha hls
  · exact read_comparison_links ha hls nofun

theorem Expr.readLinks_cons (op : Comparison) (n : Nat) (ts : List Token) :
    readLinks (n + 1) (.symbol (.comparison op) :: ts) =
      (.cons op (read n .sum ts).1 (readLinks n (read n .sum ts).2).1,
        (readLinks n (read n .sum ts).2).2) := by
  rw [readLinks]

theorem Expr.readLinks_of_head? (h : ∀ op, ts.head? ≠ some (.symbol (.comparison op))) (n : Nat) :
    readLinks n ts = (.nil, ts) := by
  unfold readLinks
  split
  · exact absurd rfl (h _)
  · rfl

/-! ## Passes -/

/-- A pass comes to a right result. If that is a value it stops before the tokens `ts`, and it
always stops inside `k` operands that are passed over. -/
structure Follows (x : Evaluator) (k : Nat) (right : Except Fault Value → Prop) (ts : List Token)
    (o : Outcome Value) : Prop where
  counted : o.2.skipping = k
  result : right o.1
  rest : ∀ v, o.1 = .ok v → x.rest o.2 = ts

/-- A pass comes to what the reader finds. -/
abbrev FollowsTree (x : Evaluator) (c : Cursor) (found : Expr × List Token) (o : Outcome Value) :=
  Follows x c.skipping (Fits x.locals c.skipping found.1) found.2 o

variable {x : Evaluator} {c : Cursor} {p q : Except Fault Value → Prop} {m : Step Value}
  {g : Value → Step Value}

theorem Follows.of_error {d : Cursor} {fault : Fault} (hd : d.skipping = k) (h : p (.error fault)) :
    Follows x k p ts (.error fault, d) :=
  ⟨hd, h, fun _ hv => by cases hv⟩

/-- A pass that goes on. -/
theorem Follows.bind (h : Follows x c.skipping p ts (outcome m c))
    (herror : ∀ fault, p (.error fault) → q (.error fault))
    (hok : ∀ v d, d.skipping = c.skipping → x.rest d = ts → p (.ok v) →
      Follows x c.skipping q us (outcome (g v) d)) :
    Follows x c.skipping q us (outcome (m >>= g) c) := by
  rcases ho : outcome m c with ⟨r, d⟩
  rw [ho] at h
  cases r with
  | error fault =>
    rw [outcome_bind_error ho]
    exact .of_error h.counted (herror fault h.result)
  | ok v =>
    rw [outcome_bind_ok ho]
    exact hok v d h.counted (h.rest v rfl) h.result

theorem Follows.of_settle {d : Cursor} (hd : d.skipping = k) (hts : x.rest d = ts)
    (h : p (settled k r)) : Follows x k p ts (outcome (Evaluator.settle r) d) := by
  rw [Evaluator.outcome_settle, hd]
  exact ⟨hd, h, fun _ _ => hts⟩

theorem Follows.of_value {d : Cursor} (hd : d.skipping = k) (hts : x.rest d = ts) (h : p (.ok v)) :
    Follows x k p ts (outcome (pure v) d) :=
  ⟨hd, h, fun _ _ => hts⟩

/-- The right operand of a connective, passed over or not. -/
theorem Follows.of_connected {found : Expr × List Token} {passed settled : Bool}
    (hm : ∀ k, FollowsTree x { c with skipping := k } found
      (outcome m { c with skipping := k }))
    (hp : ∀ r, (if passed then found.1.fault? = faultOf r
      else Fits x.locals c.skipping found.1 r) →
      p (r.map fun w => .bool (if passed then settled else w.truthy))) :
    Follows x c.skipping p found.2 (outcome (Evaluator.connected passed settled m) c) := by
  cases passed with
  | false =>
    exact (hm c.skipping).bind (fun fault hf => hp _ hf) fun v d hd hrest hv =>
      .of_value hd hrest (hp _ hv)
  | true =>
    rcases ho : outcome m { c with skipping := c.skipping + 1 } with ⟨r, d⟩
    have h := hm (c.skipping + 1)
    rw [ho] at h
    have hcounted : d.skipping - 1 = c.skipping := by rw [h.counted]; rfl
    have hp := hp r h.result
    have hskip := Evaluator.outcome_skip ho
    rw [Evaluator.connected, if_pos rfl]
    cases r with
    | error fault =>
      rw [outcome_bind_error hskip]
      exact .of_error hcounted hp
    | ok w =>
      rw [outcome_bind_ok hskip]
      exact ⟨hcounted, hp, fun _ _ => h.rest w rfl⟩

/-- A pass with some fuel does what the reader does with as much. -/
structure Agrees (x : Evaluator) (n : Nat) : Prop where
  level : ∀ l c, FollowsTree x c (Expr.read n l (x.rest c)) (outcome (x.level l n) c)
  more : ∀ l a v c, l.joining = true → Fits x.locals c.skipping a (.ok v) →
    FollowsTree x c (Expr.readMore n l a (x.rest c)) (outcome (x.more l n v) c)
  links : ∀ v holds c,
    Follows x c.skipping
      (FitsLinks x.locals v holds c.skipping (Expr.readLinks n (x.rest c)).1)
      (Expr.readLinks n (x.rest c)).2 (outcome (x.comparisonMore n v holds) c)

/-- Where no operator of the level stands next, the pass and the reader both stop. -/
theorem followsTree_of_not_joins (hv : Fits x.locals c.skipping a (.ok v))
    (h : ∀ t ∈ (x.rest c).head?, ∀ f, ¬Joins l t f) (n : Nat) :
    FollowsTree x c (Expr.readMore n l a (x.rest c)) (.ok v, c) := by
  have hread : Expr.readMore n l a (x.rest c) = (a, x.rest c) := by
    rcases hts : x.rest c with _ | ⟨t, ts⟩
    · cases n <;> rfl
    · exact Expr.readMore_of_not_joins (h t (by rw [hts]; rfl)) n a ts
  rw [hread]
  exact ⟨rfl, hv, fun _ _ => rfl⟩

namespace Agrees

/-- The pass joins operands to what comes before as the reader does. -/
theorem joined (h : Agrees x n) (hl : l.joining = true) (found : Expr × List Token)
    (hm : FollowsTree x c found (outcome m c)) :
    FollowsTree x c (Expr.readMore n l found.1 found.2) (outcome (m >>= x.more l n) c) := by
  refine hm.bind (fun fault hf => hf.readMore_error n _) fun v d hd hrest hv => ?_
  rw [← hd] at hv
  have := h.more l found.1 v d hl hv
  rwa [FollowsTree, hd, hrest] at this

theorem level_joining (h : Agrees x n) (hl : l.joining = true) (c : Cursor) :
    FollowsTree x c (Expr.read (n + 1) l (x.rest c)) (outcome (x.level l (n + 1)) c) := by
  rw [Expr.read_of_joining hl, Evaluator.level_of_joining hl]
  exact h.joined hl _ (h.level l.next c)

/-- One operator, its right operand, and what follows. -/
theorem more_of_operand (h : Agrees x n) (hj : Joins l t f) (hts : x.rest c = t :: ts)
    (hm : Follows x c.skipping
      (Fits x.locals c.skipping (f a (Expr.read n l.next (x.rest c.next)).1))
      (Expr.read n l.next (x.rest c.next)).2 (outcome m c.next)) :
    FollowsTree x c (Expr.readMore (n + 1) l a (x.rest c))
      (outcome (m >>= x.more l n) c.next) := by
  rw [hts, Expr.readMore_join hj, ← Evaluator.rest_next hts]
  exact h.joined (c := c.next) hj.joining (_, _) hm

/-- The right operand of an arithmetic operator. -/
theorem arithmetic_operand (h : Agrees x n) (hv : Fits x.locals c.skipping a (.ok v)) (l : Level)
    (op : Arithmetic) :
    Follows x c.skipping
      (Fits x.locals c.skipping (.arithmetic op a (Expr.read n l (x.rest c)).1))
      (Expr.read n l (x.rest c)).2
      (outcome (x.level l n >>= fun w => Evaluator.settle (op.apply v w)) c) :=
  (h.level l c).bind (fun _ hw => hv.arithmetic_error hw) fun _ _ hd hrest hw =>
    .of_settle hd hrest (hv.arithmetic hw)

/-- A level of connectives. -/
theorem more_connective {s : Symbol} {w : Bool} (h : Agrees x n)
    (hjoins : ∀ t g, Joins l t g ↔ t.operator? = some s ∧ g = f)
    (hv : Fits x.locals c.skipping a (.ok v))
    (hf : ∀ {b r}, (if v.truthy == w then b.fault? = faultOf r else Fits x.locals c.skipping b r) →
      Fits x.locals c.skipping (f a b)
        (r.map fun u => .bool (if v.truthy == w then w else u.truthy))) :
    FollowsTree x c (Expr.readMore (n + 1) l a (x.rest c))
      (outcome (x.moreConnective l s w n v) c) := by
  rw [Evaluator.moreConnective]
  by_cases hop : x.operator? c = some s
  · obtain ⟨t, ts, hts, ht⟩ := Evaluator.exists_of_operator? hop
    rw [outcome_bind_ok (Evaluator.outcome_eat_of_eq hop), if_pos rfl]
    refine h.more_of_operand ((hjoins t f).2 ⟨ht, rfl⟩) hts ?_
    exact .of_connected (c := c.next) (fun k => h.level l.next { c.next with skipping := k })
      fun r => hf
  · rw [outcome_bind_ok (Evaluator.outcome_eat_of_ne hop), if_neg Bool.false_ne_true]
    refine followsTree_of_not_joins hv (fun t ht g hj => hop ?_) _
    rw [Evaluator.operator?_of_head? ht]
    exact ((hjoins t g).1 hj).1

/-- A level of arithmetic operators. -/
theorem more_arithmetic (h : Agrees x n) {among : Symbol → Option Arithmetic}
    (hjoins : ∀ t f, Joins l t f ↔ ∃ op, t.operator?.bind among = some op ∧ f = .arithmetic op)
    (hv : Fits x.locals c.skipping a (.ok v)) :
    FollowsTree x c (Expr.readMore (n + 1) l a (x.rest c))
      (outcome (x.moreArithmetic l among n v) c) := by
  rw [Evaluator.moreArithmetic]
  cases hop : (x.operator? c).bind among with
  | some op =>
    obtain ⟨s, hs, hamong⟩ := Option.bind_eq_some_iff.1 hop
    obtain ⟨t, ts, hts, ht⟩ := Evaluator.exists_of_operator? hs
    have hj := (hjoins t _).2 ⟨op, by rw [ht]; exact hamong, rfl⟩
    rw [outcome_bind_ok (Evaluator.outcome_eatAmong_some hop)]
    simpa using h.more_of_operand hj hts (h.arithmetic_operand (c := c.next) hv l.next op)
  | none =>
    rw [outcome_bind_ok (Evaluator.outcome_eatAmong_none hop)]
    refine followsTree_of_not_joins hv (fun t ht f hj => ?_) _
    obtain ⟨op, hop', -⟩ := (hjoins t f).1 hj
    rw [← Evaluator.operator?_of_head? ht, hop] at hop'
    cases hop'

theorem level_negation (h : Agrees x n) (c : Cursor) :
    FollowsTree x c (Expr.read (n + 1) .negation (x.rest c)) (outcome (x.negation (n + 1)) c) := by
  rw [Evaluator.negation]
  by_cases hop : x.operator? c = some .negation
  · obtain ⟨t, ts, hts, ht⟩ := Evaluator.exists_of_operator? hop
    rw [outcome_bind_ok (Evaluator.outcome_eat_of_eq hop), if_pos rfl, hts,
      Expr.read_negation (isNegation_iff_operator?.2 ht), ← Evaluator.rest_next hts]
    exact (h.level .negation c.next).bind (fun _ => .operator_error (by simp))
      fun _ _ hd hrest hv => .of_value hd hrest hv.negation
  · rw [outcome_bind_ok (Evaluator.outcome_eat_of_ne hop), if_neg Bool.false_ne_true]
    have hread : Expr.read (n + 1) .negation (x.rest c) = Expr.read n .comparison (x.rest c) := by
      rcases hts : x.rest c with _ | ⟨t, ts⟩
      · rfl
      · refine Expr.read_negation_of_not (Bool.eq_false_of_not_eq_true fun ht => hop ?_) n ts
        rw [Evaluator.operator?_of_head? (t := t) (by rw [hts]; rfl)]
        exact isNegation_iff_operator?.1 ht
    rw [hread]
    exact h.level .comparison c

theorem level_comparison (h : Agrees x n) (c : Cursor) :
    FollowsTree x c (Expr.read (n + 1) .comparison (x.rest c))
      (outcome (x.comparison (n + 1)) c) := by
  rw [Evaluator.comparison, Expr.read_comparison]
  refine (h.level .sum c).bind (fun _ hv => hv.after_error _) fun v d hd hrest hv => ?_
  have hlinks := h.links v none d
  rw [hd, hrest] at hlinks
  exact ⟨hlinks.counted, hv.after hlinks.result, hlinks.rest⟩

theorem links_succ (h : Agrees x n) (v : Value) (holds : Option Bool) (c : Cursor) :
    Follows x c.skipping
      (FitsLinks x.locals v holds c.skipping (Expr.readLinks (n + 1) (x.rest c)).1)
      (Expr.readLinks (n + 1) (x.rest c)).2 (outcome (x.comparisonMore (n + 1) v holds) c) := by
  rw [Evaluator.comparisonMore]
  cases hop : (x.operator? c).bind Symbol.comparison? with
  | some op =>
    obtain ⟨s, hs, hcomparison⟩ := Option.bind_eq_some_iff.1 hop
    obtain rfl : s = .comparison op := by cases s <;> cases hcomparison; rfl
    obtain ⟨t, ts, hts, ht⟩ := Evaluator.exists_of_operator? hs
    obtain rfl := (operator?_eq_some_iff (by simp)).1 ht
    rw [outcome_bind_ok (Evaluator.outcome_eatAmong_some hop), hts, Expr.readLinks_cons,
      ← Evaluator.rest_next hts]
    refine (h.level .sum c.next).bind (fun _ hw => .cons_error hw) fun w d hd hrest hw => ?_
    have hlinks := h.links w (some (holds.getD true && op.holds v w)) d
    rw [hd, hrest] at hlinks
    exact ⟨hlinks.counted, .cons hw hlinks.result, hlinks.rest⟩
  | none =>
    rw [outcome_bind_ok (Evaluator.outcome_eatAmong_none hop), Expr.readLinks_of_head?]
    · exact .of_value rfl rfl .nil
    · intro op hhead
      rw [Evaluator.operator?_of_head? (t := .symbol (.comparison op)) hhead] at hop
      cases hop

theorem level_sign (h : Agrees x n) (c : Cursor) :
    FollowsTree x c (Expr.read (n + 1) .sign (x.rest c)) (outcome (x.sign (n + 1)) c) := by
  rw [Evaluator.sign]
  by_cases hminus : x.operator? c = some (.arithmetic .subtract)
  · obtain ⟨t, ts, hts, ht⟩ := Evaluator.exists_of_operator? hminus
    obtain rfl := (operator?_eq_some_iff (by simp)).1 ht
    rw [outcome_bind_ok (Evaluator.outcome_eat_of_eq hminus), if_pos rfl, hts, Expr.read,
      ← Evaluator.rest_next hts]
    exact (h.level .sign c.next).bind (fun _ => .operator_error (by simp))
      fun _ _ hd hrest hv => .of_settle hd hrest hv.negate
  rw [outcome_bind_ok (Evaluator.outcome_eat_of_ne hminus), if_neg Bool.false_ne_true]
  by_cases hplus : x.operator? c = some (.arithmetic .add)
  · obtain ⟨t, ts, hts, ht⟩ := Evaluator.exists_of_operator? hplus
    obtain rfl := (operator?_eq_some_iff (by simp)).1 ht
    rw [outcome_bind_ok (Evaluator.outcome_eat_of_eq hplus), if_pos rfl, hts, Expr.read,
      ← Evaluator.rest_next hts]
    exact h.level .sign c.next
  rw [outcome_bind_ok (Evaluator.outcome_eat_of_ne hplus), if_neg Bool.false_ne_true]
  have hread : Expr.read (n + 1) .sign (x.rest c) = Expr.read n .primary (x.rest c) := by
    rcases hts : x.rest c with _ | ⟨t, ts⟩
    · rfl
    rw [Evaluator.operator?_of_head? (t := t) (by rw [hts]; rfl)] at hminus hplus
    exact Expr.read_sign_of_ne (fun ht => hminus (by rw [ht]; rfl))
      (fun ht => hplus (by rw [ht]; rfl)) n ts
  rw [hread]
  exact h.level .primary c

theorem word (hts : x.rest c = ts) (name : String) :
    FollowsTree x c (Expr.ofToken (.word name) ts) (outcome (x.word name) c) := by
  unfold Evaluator.word
  split
  · exact .of_value rfl hts .constant
  · exact .of_value rfl hts .constant
  · exact .of_value rfl hts .constant
  · exact .of_value rfl hts .constant
  · exact .of_error rfl .broken
  · exact .of_error rfl .broken
  · exact .of_error rfl .broken
  · rw [Expr.ofToken_variable (by simp_all [reserved])]
    exact .of_settle rfl hts .name

theorem level_primary (h : Agrees x n) (c : Cursor) :
    FollowsTree x c (Expr.read (n + 1) .primary (x.rest c)) (outcome (x.primary (n + 1)) c) := by
  rw [Evaluator.primary, outcome_bind_ok (Evaluator.outcome_peek c)]
  rcases hts : x.rest c with _ | ⟨t, ts⟩
  · exact .of_error rfl .broken
  have hnext := Evaluator.rest_next hts
  have hadvance : outcome Evaluator.advance c = (.ok (), c.next) := rfl
  rw [List.head?_cons]
  dsimp only
  rw [outcome_bind_ok hadvance]
  cases t with
  | int n => exact .of_value rfl hnext .constant
  | float y => exact .of_value rfl hnext .constant
  | word name => exact word (c := c.next) hnext name
  | symbol s => exact .of_error rfl .broken
  | closing => exact .of_error rfl .broken
  | opening =>
    have ha := h.level .either c.next
    rcases hread : Expr.read n .either ts with ⟨a, rest⟩
    rw [hnext, hread] at ha
    by_cases hclosing : rest.head? = some .closing
    · obtain ⟨rest, rfl⟩ := List.head?_eq_some_iff.1 hclosing
      rw [Expr.read_parentheses hread]
      refine ha.bind (fun _ hv => hv) fun v d hd hrest hv => ?_
      rw [outcome_bind_ok (Evaluator.outcome_peek d), hrest]
      exact ⟨hd, hv, fun _ _ => Evaluator.rest_next hrest⟩
    · rw [Expr.read_unclosed hread hclosing]
      refine ha.bind (fun _ => .operator_error (by simp)) fun v d hd hrest hv => ?_
      rw [outcome_bind_ok (Evaluator.outcome_peek d), hrest]
      split
      · rename_i heq
        exact absurd heq hclosing
      · exact .of_error hd hv.unclosed

end Agrees

theorem agrees (x : Evaluator) (n : Nat) : Agrees x n := by
  induction n with
  | zero =>
    refine ⟨fun l c => ?_, fun l a v c hl hv => ?_, fun v holds c => ?_⟩
    · cases l <;> exact .of_error rfl .broken
    · cases l <;> exact .of_value rfl rfl hv
    · exact .of_value rfl rfl .nil
  | succ n h =>
    refine ⟨fun l c => ?_, fun l a v c hl hv => ?_, h.links_succ⟩
    · cases l with
      | either | both | sum | term => exact h.level_joining rfl c
      | negation => exact h.level_negation c
      | comparison => exact h.level_comparison c
      | sign => exact h.level_sign c
      | primary => exact h.level_primary c
    · cases l with
      | either =>
        rw [FollowsTree, Evaluator.more, Evaluator.eitherMore_succ]
        exact h.more_connective (fun _ _ => joins_either_iff) hv hv.either
      | both =>
        rw [FollowsTree, Evaluator.more, Evaluator.bothMore_succ]
        exact h.more_connective (fun _ _ => joins_both_iff) hv hv.both
      | sum => exact h.more_arithmetic (fun _ _ => joins_sum_iff) hv
      | term => exact h.more_arithmetic (fun _ _ => joins_term_iff) hv
      | negation | comparison | sign | primary => cases hl

/-- One pass over the tokens comes to what reading the whole tree and evaluating it comes to. -/
theorem evaluate_eq (condition : String) (locals : Locals) :
    evaluate condition locals = (do
      let ts ← tokenize condition
      if ts.isEmpty then .error .empty
      else
        let (e, rest) := Expr.ofTokens ts
        let v ← e.eval locals
        match rest with
        | [] => .ok v
        | t :: _ => .error (.trailing t)) := by
  unfold evaluate
  refine congrArg _ (funext fun ts => ?_)
  split
  · rfl
  have h : FollowsTree ⟨ts, locals⟩ {} (Expr.ofTokens ts)
      ((Evaluator.either ⟨ts, locals⟩ (9 * ts.length + 9)).run.run {}) :=
    (agrees ⟨ts, locals⟩ (9 * ts.length + 9)).level .either {}
  generalize (Evaluator.either ⟨ts, locals⟩ (9 * ts.length + 9)).run.run {} = o at h ⊢
  obtain ⟨r, c⟩ := o
  rcases he : Expr.ofTokens ts with ⟨e, rest⟩
  rw [he] at h
  have hresult : e.eval locals = r := h.result
  dsimp only
  rw [hresult]
  cases r with
  | error fault => rfl
  | ok v =>
    have hrest : ts.drop c.pos = rest := h.rest v rfl
    rw [ok_bind, ok_bind, ← List.head?_drop, hrest]
    cases rest <;> rfl

end AudioFeatures.Condition
