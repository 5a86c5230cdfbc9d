import AudioFeatures.Feature.Pipeline
import AudioFeatures.Proofs.Condition.OnePass

/-! # Lazy evaluation

What a syntax tree evaluates to, rule by rule. Nothing is asked of an operand that is passed over,
so whatever would go wrong in it does not matter; its tokens must still follow the grammar.
-/

namespace AudioFeatures.Condition

mutual

inductive Evaluates (locals : Locals) : Expr → Value → Prop
  | constant (v : Value) : Evaluates locals (.constant v) v
  | variable {name v} : locals.get? name = some v → Evaluates locals (.variable name) v
  | either_truthy {a b x} : Evaluates locals a x → x.truthy = true →
      Evaluates locals (.either a b) (.bool true)
  | either_falsy {a b x y} : Evaluates locals a x → x.truthy = false → Evaluates locals b y →
      Evaluates locals (.either a b) (.bool y.truthy)
  | both_falsy {a b x} : Evaluates locals a x → x.truthy = false →
      Evaluates locals (.both a b) (.bool false)
  | both_truthy {a b x y} : Evaluates locals a x → x.truthy = true → Evaluates locals b y →
      Evaluates locals (.both a b) (.bool y.truthy)
  | negation {a x} : Evaluates locals a x → Evaluates locals (.negation a) (.bool !x.truthy)
  | chain {a ls x r} : Evaluates locals a x → Compares locals ls x r →
      Evaluates locals (.chain a ls) (.bool r)
  | arithmetic {op a b x y v} : Evaluates locals a x → Evaluates locals b y →
      Arithmetic.apply op x y = .ok v → Evaluates locals (.arithmetic op a b) v
  | negate {a x v} : Evaluates locals a x → x.negate = .ok v → Evaluates locals (.negate a) v

/-- All operands of a chain have values; the outcome is whether each comparison holds. -/
inductive Compares (locals : Locals) : Links → Value → Bool → Prop
  | nil {x} : Compares locals .nil x true
  | cons {op a ls x y r} : Evaluates locals a y → Compares locals ls y r →
      Compares locals (.cons op a ls) x (op.holds x y && r)

end

variable {locals : Locals} {a b e : Expr} {v : Value}

theorem skip_eq_ok_iff {w : Bool} : e.skip w = .ok v ↔ e.fault? = none ∧ .bool w = v := by
  unfold Expr.skip
  cases e.fault? <;> simp

mutual

/-- A value comes from a tree without faults, by the rules. -/
theorem Expr.evaluates_of_eval : (e : Expr) → (v : Value) → e.eval locals = .ok v →
    e.fault? = none ∧ Evaluates locals e v
  | .constant _, _, h => by cases h; exact ⟨rfl, .constant _⟩
  | .variable name, v, h => by
    rw [Expr.eval] at h
    cases hv : locals.get? name with
    | none => rw [hv] at h; cases h
    | some w => rw [hv] at h; cases h; exact ⟨rfl, .variable hv⟩
  | .either a b, v, h => by
    rw [Expr.eval, bind_eq_ok_iff] at h
    obtain ⟨x, ha, h⟩ := h
    obtain ⟨hf, ha⟩ := Expr.evaluates_of_eval a x ha
    cases hx : x.truthy with
    | true =>
      rw [if_pos hx] at h
      obtain ⟨hf', rfl⟩ := skip_eq_ok_iff.1 h
      exact ⟨by rw [Expr.fault?, hf, hf']; rfl, .either_truthy ha hx⟩
    | false =>
      rw [if_neg (by simp [hx])] at h
      obtain ⟨y, hb, h⟩ := bind_eq_ok_iff.1 h
      obtain ⟨hf', hb⟩ := Expr.evaluates_of_eval b y hb
      cases h
      exact ⟨by rw [Expr.fault?, hf, hf']; rfl, .either_falsy ha hx hb⟩
  | .both a b, v, h => by
    rw [Expr.eval, bind_eq_ok_iff] at h
    obtain ⟨x, ha, h⟩ := h
    obtain ⟨hf, ha⟩ := Expr.evaluates_of_eval a x ha
    cases hx : x.truthy with
    | true =>
      rw [if_pos hx] at h
      obtain ⟨y, hb, h⟩ := bind_eq_ok_iff.1 h
      obtain ⟨hf', hb⟩ := Expr.evaluates_of_eval b y hb
      cases h
      exact ⟨by rw [Expr.fault?, hf, hf']; rfl, .both_truthy ha hx hb⟩
    | false =>
      rw [if_neg (by simp [hx])] at h
      obtain ⟨hf', rfl⟩ := skip_eq_ok_iff.1 h
      exact ⟨by rw [Expr.fault?, hf, hf']; rfl, .both_falsy ha hx⟩
  | .negation a, v, h => by
    rw [Expr.eval, bind_eq_ok_iff] at h
    obtain ⟨x, ha, h⟩ := h
    obtain ⟨hf, ha⟩ := Expr.evaluates_of_eval a x ha
    cases h
    exact ⟨hf, .negation ha⟩
  | .chain a ls, v, h => by
    rw [Expr.eval, bind_eq_ok_iff] at h
    obtain ⟨x, ha, h⟩ := h
    obtain ⟨r, hls, h⟩ := bind_eq_ok_iff.1 h
    obtain ⟨hf, ha⟩ := Expr.evaluates_of_eval a x ha
    obtain ⟨hf', hls⟩ := Links.compares_of_eval ls x r hls
    cases h
    exact ⟨by rw [Expr.fault?, hf, hf']; rfl, .chain ha hls⟩
  | .arithmetic op a b, v, h => by
    rw [Expr.eval, bind_eq_ok_iff] at h
    obtain ⟨x, ha, h⟩ := h
    obtain ⟨y, hb, h⟩ := bind_eq_ok_iff.1 h
    obtain ⟨hf, ha⟩ := Expr.evaluates_of_eval a x ha
    obtain ⟨hf', hb⟩ := Expr.evaluates_of_eval b y hb
    exact ⟨by rw [Expr.fault?, hf, hf']; rfl, .arithmetic ha hb h⟩
  | .negate a, v, h => by
    rw [Expr.eval, bind_eq_ok_iff] at h
    obtain ⟨x, ha, h⟩ := h
    obtain ⟨hf, ha⟩ := Expr.evaluates_of_eval a x ha
    exact ⟨hf, .negate ha h⟩
  | .broken _, _, h => nomatch h
  | .unclosed a, _, h => by
    rw [Expr.eval, bind_eq_ok_iff] at h
    obtain ⟨_, _, h⟩ := h
    cases h

theorem Links.compares_of_eval : (ls : Links) → (x : Value) → (r : Bool) →
    ls.eval locals x = .ok r → ls.fault? = none ∧ Compares locals ls x r
  | .nil, _, _, h => by cases h; exact ⟨rfl, .nil⟩
  | .cons op a ls, x, r, h => by
    rw [Links.eval, bind_eq_ok_iff] at h
    obtain ⟨y, ha, h⟩ := h
    obtain ⟨s, hls, h⟩ := bind_eq_ok_iff.1 h
    obtain ⟨hf, ha⟩ := Expr.evaluates_of_eval a y ha
    obtain ⟨hf', hls⟩ := Links.compares_of_eval ls y s hls
    cases h
    exact ⟨by rw [Links.fault?, hf, hf']; rfl, .cons ha hls⟩

end

mutual

/-- The rules find the value of a tree without faults. -/
theorem Evaluates.eval {locals : Locals} {e : Expr} {v : Value} :
    Evaluates locals e v → e.fault? = none → e.eval locals = .ok v
  | .constant _, _ => rfl
  | .variable hv, _ => by rw [Expr.eval, hv]
  | .either_truthy ha hx, hf => by
    obtain ⟨hf, hf'⟩ := Option.or_eq_none_iff.1 hf
    refine bind_eq_ok_iff.2 ⟨_, ha.eval hf, ?_⟩
    rw [if_pos hx]
    exact skip_eq_ok_iff.2 ⟨hf', rfl⟩
  | .either_falsy ha hx hb, hf => by
    obtain ⟨hf, hf'⟩ := Option.or_eq_none_iff.1 hf
    refine bind_eq_ok_iff.2 ⟨_, ha.eval hf, ?_⟩
    rw [if_neg (by simp [hx])]
    exact bind_eq_ok_iff.2 ⟨_, hb.eval hf', rfl⟩
  | .both_falsy ha hx, hf => by
    obtain ⟨hf, hf'⟩ := Option.or_eq_none_iff.1 hf
    refine bind_eq_ok_iff.2 ⟨_, ha.eval hf, ?_⟩
    rw [if_neg (by simp [hx])]
    exact skip_eq_ok_iff.2 ⟨hf', rfl⟩
  | .both_truthy ha hx hb, hf => by
    obtain ⟨hf, hf'⟩ := Option.or_eq_none_iff.1 hf
    refine bind_eq_ok_iff.2 ⟨_, ha.eval hf, ?_⟩
    rw [if_pos hx]
    exact bind_eq_ok_iff.2 ⟨_, hb.eval hf', rfl⟩
  | .negation ha, hf => bind_eq_ok_iff.2 ⟨_, ha.eval hf, rfl⟩
  | .chain ha hls, hf => by
    obtain ⟨hf, hf'⟩ := Option.or_eq_none_iff.1 hf
    exact bind_eq_ok_iff.2 ⟨_, ha.eval hf, bind_eq_ok_iff.2 ⟨_, hls.eval hf', rfl⟩⟩
  | .arithmetic ha hb hv, hf => by
    obtain ⟨hf, hf'⟩ := Option.or_eq_none_iff.1 hf
    exact bind_eq_ok_iff.2 ⟨_, ha.eval hf, bind_eq_ok_iff.2 ⟨_, hb.eval hf', hv⟩⟩
  | .negate ha hv, hf => bind_eq_ok_iff.2 ⟨_, ha.eval hf, hv⟩

theorem Compares.eval {locals : Locals} {ls : Links} {x : Value} {r : Bool} :
    Compares locals ls x r → ls.fault? = none → ls.eval locals x = .ok r
  | .nil, _ => rfl
  | .cons ha hls, hf => by
    obtain ⟨hf, hf'⟩ := Option.or_eq_none_iff.1 hf
    exact bind_eq_ok_iff.2 ⟨_, ha.eval hf, bind_eq_ok_iff.2 ⟨_, hls.eval hf', rfl⟩⟩

end

theorem Expr.eval_eq_ok_iff : e.eval locals = .ok v ↔ e.fault? = none ∧ Evaluates locals e v :=
  ⟨e.evaluates_of_eval v, fun ⟨hf, he⟩ => he.eval hf⟩

/-- The whole of a condition is evaluated as its syntax tree. -/
theorem evaluate_of_derives {condition : String} {ts : List Token}
    (h : tokenize condition = .ok ts) (hd : Derives .either ts e) :
    evaluate condition locals = e.eval locals := by
  obtain ⟨hr, -⟩ := ofTokens_eq_iff.2 hd
  obtain ⟨t, u, rfl, -⟩ := hd.starts
  rw [evaluate_eq, h, ok_bind, if_neg (by simp), hr]
  dsimp only
  cases e.eval locals <;> rfl

theorem evaluate_eq_ok_iff {condition : String} {ts : List Token}
    (h : tokenize condition = .ok ts) :
    evaluate condition locals = .ok v ↔ ∃ e, Derives .either ts e ∧ Evaluates locals e v := by
  rw [evaluate_eq, bind_eq_ok_iff]
  constructor
  · rintro ⟨ts', hts, hv⟩
    cases h.symm.trans hts
    split at hv
    · cases hv
    rcases hr : Expr.ofTokens ts with ⟨e, rest⟩
    rw [hr] at hv
    obtain ⟨w, he, hv⟩ := bind_eq_ok_iff.1 hv
    cases rest with
    | nil =>
      cases hv
      obtain ⟨hf, he⟩ := Expr.eval_eq_ok_iff.1 he
      exact ⟨e, ofTokens_eq_iff.1 ⟨hr, hf⟩, he⟩
    | cons t rest => cases hv
  · rintro ⟨e, hd, he⟩
    obtain ⟨hr, hf⟩ := ofTokens_eq_iff.2 hd
    obtain ⟨t, u, rfl, -⟩ := hd.starts
    refine ⟨t :: u, h, ?_⟩
    rw [if_neg (by simp), hr]
    exact bind_eq_ok_iff.2 ⟨v, he.eval hf, rfl⟩

theorem value_eq_ok_iff {condition : String} :
    value condition locals = .ok v ↔ evaluate condition locals = .ok v := by
  unfold value
  cases evaluate condition locals <;> simp [Except.mapError]

/-- A condition of which the tokens can be read has the value that the lazy evaluation of its one
syntax tree gives. It is rejected when there is no tree or the tree has no value. -/
theorem value_iff {condition : String} {ts : List Token} (h : tokenize condition = .ok ts)
    (locals : Locals) :
    (∀ v, value condition locals = .ok v ↔ ∃ e, Derives .either ts e ∧ Evaluates locals e v) ∧
      (∀ a b, Derives .either ts a → Derives .either ts b → a = b) ∧
      ((¬∃ e v, Derives .either ts e ∧ Evaluates locals e v) →
        ∃ fault, value condition locals = .error (.condition condition fault)) := by
  have hvalue (v : Value) :
      value condition locals = .ok v ↔ ∃ e, Derives .either ts e ∧ Evaluates locals e v :=
    value_eq_ok_iff.trans (evaluate_eq_ok_iff h)
  refine ⟨hvalue, fun a b => Derives.unique, fun hnone => ?_⟩
  cases hv : evaluate condition locals with
  | ok v =>
    obtain ⟨e, he⟩ := (hvalue v).1 (value_eq_ok_iff.2 hv)
    exact absurd ⟨e, v, he⟩ hnone
  | error fault => exact ⟨fault, by rw [value, hv]; rfl⟩

theorem value_iff_passed_over :
    tokenize "1 or not x // 0 < (y)" = .ok [.int 1, .word "or", .word "not", .word "x",
      .symbol (.arithmetic .floorDivide), .int 0, .symbol (.comparison .less), .opening,
      .word "y", .closing] ∧
    value "1 or not x // 0 < (y)" ∅ = .ok (.bool true) := by
  have h : tokenize "1 or not x // 0 < (y)" = .ok [.int 1, .word "or", .word "not", .word "x",
      .symbol (.arithmetic .floorDivide), .int 0, .symbol (.comparison .less), .opening,
      .word "y", .closing] := by cbv
  let quotient : Expr := .arithmetic .floorDivide (.variable "x") (.constant (.int 0))
  let e : Expr := .either (.constant (.int 1))
    (.negation (.chain quotient (.cons .less (.variable "y") .nil)))
  refine ⟨h, ((value_iff h ∅).1 _).2 ⟨e, ?_, .either_truthy (.constant _) rfl⟩⟩
  exact ofTokens_eq_iff.1 ⟨rfl, rfl⟩

end AudioFeatures.Condition
