import AudioFeatures.Condition.Evaluation
import AudioFeatures.Proofs.Condition.Grammar

/-! # The parts of a pass

What a part of an evaluation comes to from a cursor: a value or a fault, and the cursor at which it
stops.
-/

namespace AudioFeatures.Condition

variable {α β : Type}

/-- A value or a fault, and the cursor at which the part stops. -/
abbrev Outcome (α : Type) := Except Fault α × Cursor

def outcome (m : Step α) (c : Cursor) : Outcome α := m.run.run c

/-- The cursor behind the next token. -/
def Cursor.next (c : Cursor) : Cursor := { c with pos := c.pos + 1 }

@[simp] theorem Cursor.skipping_next (c : Cursor) : c.next.skipping = c.skipping := rfl

variable {m : Step α} {g : α → Step β} {c c' : Cursor}

@[simp] theorem outcome_pure (a : α) (c : Cursor) : outcome (pure a) c = (.ok a, c) := rfl

@[simp] theorem outcome_throw (fault : Fault) (c : Cursor) :
    outcome (throw fault : Step α) c = (.error fault, c) := rfl

theorem outcome_bind_ok {a : α} (h : outcome m c = (.ok a, c')) :
    outcome (m >>= g) c = outcome (g a) c' := by
  unfold outcome at h ⊢
  simp only [ExceptT.run_bind, StateT.run_bind, h]
  rfl

theorem outcome_bind_error {fault : Fault} (h : outcome m c = (.error fault, c')) :
    outcome (m >>= g) c = (.error fault, c') := by
  unfold outcome at h ⊢
  simp only [ExceptT.run_bind, StateT.run_bind, h]
  rfl

/-- What a result settles to inside a number of operands that are passed over. -/
def settled (k : Nat) : Except Fault Value → Except Fault Value
  | .ok v => .ok v
  | .error fault => if 0 < k then .ok (.int 0) else .error fault

@[simp] theorem settled_zero (r : Except Fault Value) : settled 0 r = r := by cases r <;> rfl

theorem exists_settled {k : Nat} {r : Except Fault Value} (hk : 0 < k) :
    ∃ v, settled k r = .ok v := by
  cases r with
  | ok v => exact ⟨v, rfl⟩
  | error fault => exact ⟨.int 0, if_pos hk⟩

namespace Evaluator

@[simp] theorem outcome_settle (r : Except Fault Value) (c : Cursor) :
    outcome (settle r) c = (settled c.skipping r, c) := by
  cases r with
  | ok v => rfl
  | error fault =>
    have hget : outcome (get : Step Cursor) c = (.ok c, c) := rfl
    refine (outcome_bind_ok hget).trans ?_
    by_cases h : 0 < c.skipping <;> simp [settled, h]

/-- An operand that is passed over runs inside one more of them. -/
theorem outcome_skip {m : Step Value} {r : Except Fault Value} {d : Cursor}
    (h : outcome m { c with skipping := c.skipping + 1 } = (r, d)) :
    outcome (skip m) c = (r.map fun _ => (), { d with skipping := d.skipping - 1 }) := by
  have hrun : outcome (skip m) c =
      ((outcome m { c with skipping := c.skipping + 1 }).1.map fun _ => (),
        { (outcome m { c with skipping := c.skipping + 1 }).2 with
          skipping := (outcome m { c with skipping := c.skipping + 1 }).2.skipping - 1 }) := rfl
  rw [hrun, h]

variable {x : Evaluator}

/-- The tokens that are not read yet. -/
def rest (x : Evaluator) (c : Cursor) : List Token := x.tokens.drop c.pos

theorem rest_next {t : Token} {ts : List Token} (h : x.rest c = t :: ts) : x.rest c.next = ts := by
  rw [rest, Cursor.next, ← List.drop_drop, ← rest, h]
  rfl

@[simp] theorem outcome_peek (c : Cursor) : outcome x.peek c = (.ok (x.rest c).head?, c) := by
  rw [rest, List.head?_drop]
  rfl

/-- The operator that stands next. -/
def operator? (x : Evaluator) (c : Cursor) : Option Symbol :=
  (x.rest c).head?.bind Token.operator?

theorem outcome_eatAmong_some {among : Symbol → Option α} {a : α}
    (h : (x.operator? c).bind among = some a) :
    outcome (x.eatAmong among) c = (.ok (some a), c.next) := by
  rw [eatAmong, outcome_bind_ok (outcome_peek c), ← operator?, h]
  rfl

theorem outcome_eatAmong_none {among : Symbol → Option α} (h : (x.operator? c).bind among = none) :
    outcome (x.eatAmong among) c = (.ok none, c) := by
  rw [eatAmong, outcome_bind_ok (outcome_peek c), ← operator?, h]
  rfl

theorem outcome_eat_of_eq {s : Symbol} (h : x.operator? c = some s) :
    outcome (x.eat s) c = (.ok true, c.next) := by
  rw [eat, outcome_bind_ok (outcome_eatAmong_some (a := s) (by simp [h]))]
  rfl

theorem outcome_eat_of_ne {s : Symbol} (h : x.operator? c ≠ some s) :
    outcome (x.eat s) c = (.ok false, c) := by
  rw [eat, outcome_bind_ok (outcome_eatAmong_none ?_)]
  · rfl
  · cases hs : x.operator? c with
    | none => rfl
    | some s' => exact if_neg fun heq => h (by rw [hs, heq])

theorem exists_of_operator? {s : Symbol} (h : x.operator? c = some s) :
    ∃ t ts, x.rest c = t :: ts ∧ t.operator? = some s := by
  obtain ⟨t, ht, hop⟩ := Option.bind_eq_some_iff.1 h
  obtain ⟨ts, hts⟩ := List.head?_eq_some_iff.1 ht
  exact ⟨t, ts, hts, hop⟩

theorem operator?_of_head? {t : Token} (h : t ∈ (x.rest c).head?) :
    x.operator? c = t.operator? := by
  rw [operator?, h]
  rfl

/-! ## The levels -/

def level (x : Evaluator) : Level → Nat → Step Value
  | .either => x.either
  | .both => x.both
  | .negation => x.negation
  | .comparison => x.comparison
  | .sum => x.sum
  | .term => x.term
  | .sign => x.sign
  | .primary => x.primary

/-- Goes on with the operands of a joining level. -/
def more (x : Evaluator) : Level → Nat → Value → Step Value
  | .either => x.eitherMore
  | .both => x.bothMore
  | .sum => x.sumMore
  | .term => x.termMore
  | _ => fun _ v => pure v

theorem level_of_joining {l : Level} (hl : l.joining = true) (n : Nat) :
    x.level l (n + 1) = x.level l.next n >>= x.more l n := by
  cases l <;> first | rfl | cases hl

/-- The truth of a right operand, which is passed over if the left one settles that it is `w`. -/
def connected (passed w : Bool) (operand : Step Value) : Step Value :=
  if passed then skip operand >>= fun _ => pure (.bool w)
  else operand >>= fun v => pure (.bool v.truthy)

/-- Goes on at a level of connectives. A left operand of truth `w` settles that the whole is `w`. -/
def moreConnective (x : Evaluator) (l : Level) (s : Symbol) (w : Bool) (n : Nat) (v : Value) :
    Step Value := do
  if ← x.eat s then x.more l n (← connected (v.truthy == w) w (x.level l.next n))
  else return v

theorem eitherMore_succ (n : Nat) (v : Value) :
    x.eitherMore (n + 1) v = x.moreConnective .either .either true n v := by
  rw [eitherMore]
  refine congrArg _ (funext fun b => ?_)
  cases b <;> cases v.truthy <;> simp [connected, more, level, Level.next]

theorem bothMore_succ (n : Nat) (v : Value) :
    x.bothMore (n + 1) v = x.moreConnective .both .both false n v := by
  rw [bothMore]
  refine congrArg _ (funext fun b => ?_)
  cases b <;> cases v.truthy <;> simp [connected, more, level, Level.next]

/-- Goes on at a level of arithmetic operators. -/
def moreArithmetic (x : Evaluator) (l : Level) (among : Symbol → Option Arithmetic) (n : Nat)
    (v : Value) : Step Value := do
  match ← x.eatAmong among with
  | some op => x.more l n (← settle (op.apply v (← x.level l.next n)))
  | none => return v

end Evaluator

end AudioFeatures.Condition
