import AudioFeatures.Proofs.Condition.Expr
import AudioFeatures.Proofs.Condition.Quotients

/-! # Integer formulas

Expressions of integer literals, variables, signs and the operators of integer arithmetic. Such an
expression has its exact value or none: it has one when the exact values of all its parts are words
and no divisor is zero. The one exception is the remainder of the least word by minus one, which is
zero and is refused.
-/

namespace AudioFeatures.Condition

variable {v w : Value} {x y n : Int} {locals : Locals} {env : String → Int}

/-! ## Operations -/

/-- The operators that lead from integers to integers. -/
inductive Operation where
  | add | subtract | multiply | floorDivide | modulo
  deriving DecidableEq

namespace Operation

def arithmetic : Operation → Arithmetic
  | add => .add
  | subtract => .subtract
  | multiply => .multiply
  | floorDivide => .floorDivide
  | modulo => .modulo

/-- The result for unbounded integers. -/
def exact : Operation → Int → Int → Int
  | add, x, y => x + y
  | subtract, x, y => x - y
  | multiply, x, y => x * y
  | floorDivide, x, y => ⌊(x / y : ℚ)⌋
  | modulo, x, y => x - y * ⌊(x / y : ℚ)⌋

/-- The result is a word, and it is not divided by zero. -/
def Admits (op : Operation) (x y : Int) : Prop :=
  (op.arithmetic.divides = true → y ≠ 0) ∧ IsWord (op.exact x y)

/-- The remainder of the least word by minus one. -/
def Refuses (op : Operation) (x y : Int) : Prop := op = .modulo ∧ x = -2 ^ 63 ∧ y = -1

instance (op : Operation) (x y : Int) : Decidable (op.Admits x y) :=
  inferInstanceAs (Decidable (_ ∧ _))

instance (op : Operation) (x y : Int) : Decidable (op.Refuses x y) :=
  inferInstanceAs (Decidable (_ ∧ _))

theorem floor_div (x y : Int) : ⌊(x / y : ℚ)⌋ = x.fdiv y := by
  have hpos (x : Int) (d : Nat) : ⌊(x / (d : Int) : ℚ)⌋ = x.fdiv d := by
    rw [Int.fdiv_eq_ediv_of_nonneg _ (by omega), Int.cast_natCast]
    exact Rat.floor_intCast_div_natCast x d
  rcases Int.le_total 0 y with hy | hy
  · lift y to ℕ using hy
    exact hpos x y
  · obtain ⟨d, rfl⟩ : ∃ d : ℕ, y = -d := ⟨y.natAbs, by omega⟩
    rw [← Int.neg_fdiv_neg, neg_neg, ← hpos, Int.cast_neg, Int.cast_neg, div_neg, neg_div]

theorem exact_floorDivide (x y : Int) : floorDivide.exact x y = x.fdiv y := floor_div x y

theorem exact_modulo (x y : Int) : modulo.exact x y = x.fmod y := by
  rw [exact, floor_div, Int.fmod_def]

end Operation

/-! ## Calculations with values -/

/-- The value is an integer, or the truth value that counts as it. -/
def Value.Denotes (v : Value) (n : Int) : Prop := ∃ a, v.toInt? = some a ∧ a.toInt = n

theorem Value.Denotes.isWord (h : v.Denotes n) : IsWord n := by
  obtain ⟨a, -, rfl⟩ := h
  exact isWord_toInt a

theorem Value.denotes_ofInt (h : IsWord n) : (Value.int (Int64.ofInt n)).Denotes n :=
  ⟨_, rfl, toInt_ofInt h⟩

theorem checked_eq_ok_iff : Value.checked n = .ok v ↔ IsWord n ∧ v = .int (Int64.ofInt n) := by
  rw [checked_eq]
  split
  case isTrue h => simp [h, eq_comm]
  case isFalse h => simp [h]

theorem Value.Denotes.negate_eq (h : v.Denotes n) : v.negate = Value.checked (-n) := by
  obtain ⟨a, ha, rfl⟩ := h
  cases v with
  | int b => cases ha; rfl
  | float x => cases ha
  | bool b => cases ha; cases b <;> rfl

theorem apply_eq_onInts {op : Arithmetic} {a b : Int64} (hv : v.toInt? = some a)
    (hw : w.toInt? = some b) : op.apply v w = op.onInts a b := by
  rw [Arithmetic.apply, hv, hw]

namespace Operation

variable {op : Operation} {a b : Int64}

theorem onInts_of_zero (hop : op.arithmetic.divides = true) (hb : b.toInt = 0) :
    op.arithmetic.onInts a b = .error .divisionByZero := by
  obtain rfl : b = 0 := Int64.toInt_inj.1 hb
  rw [Arithmetic.onInts.eq_def, if_pos (by simp [hop])]

theorem onInts_of_refuses (h : op.Refuses a.toInt b.toInt) :
    op.arithmetic.onInts a b = .error .overflow := by
  obtain ⟨rfl, ha, hb⟩ := h
  obtain rfl : a = Int64.minValue := Int64.toInt_inj.1 ha
  obtain rfl : b = -1 := Int64.toInt_inj.1 hb
  rfl

/-- The result is exact wherever it is calculated. -/
theorem onInts_eq (hzero : op.arithmetic.divides = true → b.toInt ≠ 0)
    (hrefuses : ¬op.Refuses a.toInt b.toInt) :
    op.arithmetic.onInts a b = Value.checked (op.exact a.toInt b.toInt) := by
  have htest : ¬(op.arithmetic.divides && b == 0) = true := by
    rw [Bool.and_eq_true, beq_iff_eq]
    rintro ⟨hop, rfl⟩
    exact hzero hop rfl
  rw [Arithmetic.onInts.eq_def, if_neg htest]
  cases op with
  | add | subtract | multiply => rfl
  | floorDivide => rw [exact_floorDivide]; rfl
  | modulo =>
    have hb : b.toInt ≠ 0 := hzero rfl
    -- the quotient is tested before the remainder is calculated
    have hword : IsWord (a.toInt.fdiv b.toInt) :=
      (isWord_fdiv_iff (isWord_toInt a) hb).2 fun h => hrefuses ⟨rfl, h⟩
    rw [exact_modulo]
    simp only [arithmetic, checked_eq (a.toInt.fdiv b.toInt), if_pos hword, ok_bind]

theorem apply_eq_ok_iff {z : Value} (hv : v.Denotes x) (hw : w.Denotes y) :
    op.arithmetic.apply v w = .ok z ↔
      op.Admits x y ∧ ¬op.Refuses x y ∧ z = .int (Int64.ofInt (op.exact x y)) := by
  obtain ⟨a, ha, rfl⟩ := hv
  obtain ⟨b, hb, rfl⟩ := hw
  rw [apply_eq_onInts ha hb]
  by_cases hzero : op.arithmetic.divides = true → b.toInt ≠ 0
  · by_cases hrefuses : op.Refuses a.toInt b.toInt
    · simp [onInts_of_refuses hrefuses, hrefuses]
    · rw [onInts_eq hzero hrefuses, checked_eq_ok_iff, Admits]
      tauto
  · have hzero' := hzero
    push Not at hzero'
    simp [onInts_of_zero hzero'.1 hzero'.2, Admits, hzero]

end Operation

/-! ## Formulas -/

/-- The syntax tree of a formula, with its literals as they are written. -/
inductive Formula where
  | literal (n : Nat)
  | named (name : String)
  | plus (a : Formula)
  | minus (a : Formula)
  | binary (op : Operation) (a b : Formula)

namespace Formula

/-- The exact value. -/
def value (env : String → Int) : Formula → Int
  | .literal n => n
  | .named name => env name
  | .plus a => a.value env
  | .minus a => -a.value env
  | .binary op a b => op.exact (a.value env) (b.value env)

def expr : Formula → Expr
  | .literal n => .constant (.int (Int64.ofNat n))
  | .named name => .variable name
  | .plus a => a.expr
  | .minus a => .negate a.expr
  | .binary op a b => .arithmetic op.arithmetic a.expr b.expr

/-- The variables have their values, which are integers or truth values. -/
def Bound (locals : Locals) (env : String → Int) : Formula → Prop
  | .literal _ => True
  | .named name => ∃ v, locals.get? name = some v ∧ v.Denotes (env name)
  | .plus a | .minus a => a.Bound locals env
  | .binary _ a b => a.Bound locals env ∧ b.Bound locals env

/-- All literals are words. -/
def LiteralsFit : Formula → Prop
  | .literal n => IsWord n
  | .named _ => True
  | .plus a | .minus a => a.LiteralsFit
  | .binary _ a b => a.LiteralsFit ∧ b.LiteralsFit

/-- The exact values of the formula and of all its parts are words, and no divisor is zero. -/
def Exact (env : String → Int) : Formula → Prop
  | .literal n => IsWord n
  | .named name => IsWord (env name)
  | .plus a => a.Exact env
  | .minus a => a.Exact env ∧ IsWord (-a.value env)
  | .binary op a b => a.Exact env ∧ b.Exact env ∧ op.Admits (a.value env) (b.value env)

/-- No part is the remainder of the least word by minus one. -/
def SparesLeast (env : String → Int) : Formula → Prop
  | .literal _ | .named _ => True
  | .plus a | .minus a => a.SparesLeast env
  | .binary op a b =>
    a.SparesLeast env ∧ b.SparesLeast env ∧ ¬op.Refuses (a.value env) (b.value env)

instance Exact.decidable (env : String → Int) : (a : Formula) → Decidable (a.Exact env)
  | .literal n => inferInstanceAs (Decidable (IsWord n))
  | .named name => inferInstanceAs (Decidable (IsWord (env name)))
  | .plus a => Exact.decidable env a
  | .minus a =>
    have := Exact.decidable env a
    inferInstanceAs (Decidable (a.Exact env ∧ IsWord (-a.value env)))
  | .binary op a b =>
    have := Exact.decidable env a
    have := Exact.decidable env b
    inferInstanceAs (Decidable (a.Exact env ∧ b.Exact env ∧ op.Admits (a.value env) (b.value env)))

instance SparesLeast.decidable (env : String → Int) : (a : Formula) → Decidable (a.SparesLeast env)
  | .literal _ | .named _ => inferInstanceAs (Decidable True)
  | .plus a | .minus a => SparesLeast.decidable env a
  | .binary op a b =>
    have := SparesLeast.decidable env a
    have := SparesLeast.decidable env b
    inferInstanceAs (Decidable
      (a.SparesLeast env ∧ b.SparesLeast env ∧ ¬op.Refuses (a.value env) (b.value env)))

variable {a b : Formula} {op : Operation}

theorem Exact.literalsFit (h : a.Exact env) : a.LiteralsFit := by
  induction a with
  | literal n => exact h
  | named name => trivial
  | plus a ih => exact ih h
  | minus a ih => exact ih h.1
  | binary op a b iha ihb => exact ⟨iha h.1, ihb h.2.1⟩

/-! ### Evaluation -/

/-- A value that is found is the exact one. -/
theorem denotes_of_eval (hfit : a.LiteralsFit) (hb : a.Bound locals env)
    (h : a.expr.eval locals = .ok v) : v.Denotes (a.value env) := by
  induction a generalizing v with
  | literal n =>
    cases h
    exact Value.denotes_ofInt hfit
  | named name =>
    obtain ⟨w, hw, hd⟩ := hb
    rw [expr, Expr.eval, hw] at h
    cases h
    exact hd
  | plus a ih => exact ih hfit hb h
  | minus a ih =>
    obtain ⟨w, hw, h⟩ := bind_eq_ok_iff.1 h
    rw [(ih hfit hb hw).negate_eq, checked_eq_ok_iff] at h
    obtain ⟨hword, rfl⟩ := h
    exact Value.denotes_ofInt hword
  | binary op a b iha ihb =>
    obtain ⟨v₁, h₁, h⟩ := bind_eq_ok_iff.1 h
    obtain ⟨v₂, h₂, h⟩ := bind_eq_ok_iff.1 h
    obtain ⟨⟨-, hword⟩, -, rfl⟩ :=
      (Operation.apply_eq_ok_iff (iha hfit.1 hb.1 h₁) (ihb hfit.2 hb.2 h₂)).1 h
    exact Value.denotes_ofInt hword

/-- There is a value where all exact values are words, except for the refused remainder. -/
theorem exists_eval_iff (hfit : a.LiteralsFit) (hb : a.Bound locals env) :
    (∃ v, a.expr.eval locals = .ok v) ↔ a.Exact env ∧ a.SparesLeast env := by
  induction a with
  | literal n => exact ⟨fun _ => ⟨hfit, trivial⟩, fun _ => ⟨_, rfl⟩⟩
  | named name =>
    obtain ⟨w, hw, hd⟩ := hb
    exact ⟨fun _ => ⟨hd.isWord, trivial⟩, fun _ => ⟨w, by rw [expr, Expr.eval, hw]⟩⟩
  | plus a ih => exact ih hfit hb
  | minus a ih =>
    constructor
    · rintro ⟨v, h⟩
      obtain ⟨w, hw, h⟩ := bind_eq_ok_iff.1 h
      have hd : w.Denotes (a.value env) := denotes_of_eval hfit hb hw
      rw [hd.negate_eq, checked_eq_ok_iff] at h
      obtain ⟨he, hs⟩ := (ih hfit hb).1 ⟨w, hw⟩
      exact ⟨⟨he, h.1⟩, hs⟩
    · rintro ⟨⟨he, hword⟩, hs⟩
      obtain ⟨w, hw⟩ := (ih hfit hb).2 ⟨he, hs⟩
      have hd : w.Denotes (a.value env) := denotes_of_eval hfit hb hw
      exact ⟨_, bind_eq_ok_iff.2 ⟨w, hw, hd.negate_eq.trans (checked_eq_ok_iff.2 ⟨hword, rfl⟩)⟩⟩
  | binary op a b iha ihb =>
    constructor
    · rintro ⟨v, h⟩
      obtain ⟨v₁, h₁, h⟩ := bind_eq_ok_iff.1 h
      obtain ⟨v₂, h₂, h⟩ := bind_eq_ok_iff.1 h
      obtain ⟨hadmits, hrefuses, -⟩ := (Operation.apply_eq_ok_iff
        (denotes_of_eval hfit.1 hb.1 h₁) (denotes_of_eval hfit.2 hb.2 h₂)).1 h
      obtain ⟨he₁, hs₁⟩ := (iha hfit.1 hb.1).1 ⟨v₁, h₁⟩
      obtain ⟨he₂, hs₂⟩ := (ihb hfit.2 hb.2).1 ⟨v₂, h₂⟩
      exact ⟨⟨he₁, he₂, hadmits⟩, hs₁, hs₂, hrefuses⟩
    · rintro ⟨⟨he₁, he₂, hadmits⟩, hs₁, hs₂, hrefuses⟩
      obtain ⟨v₁, h₁⟩ := (iha hfit.1 hb.1).2 ⟨he₁, hs₁⟩
      obtain ⟨v₂, h₂⟩ := (ihb hfit.2 hb.2).2 ⟨he₂, hs₂⟩
      exact ⟨_, bind_eq_ok_iff.2 ⟨v₁, h₁, bind_eq_ok_iff.2 ⟨v₂, h₂, (Operation.apply_eq_ok_iff
        (denotes_of_eval hfit.1 hb.1 h₁) (denotes_of_eval hfit.2 hb.2 h₂)).2
          ⟨hadmits, hrefuses, rfl⟩⟩⟩⟩

/-! ### Calculation in single steps -/

/-- The calculation in single steps. -/
def run (locals : Locals) : Formula → Except Stop Value
  | .literal n => .ok (.int (Int64.ofNat n))
  | .named name =>
    match locals.get? name with
    | some v => .ok v
    | none => .error (.fault (.undefined name))
  | .plus a => a.run locals
  | .minus a => do Steps.negate (← a.run locals)
  | .binary op a b => do
    let v ← a.run locals
    let w ← b.run locals
    Steps.apply op.arithmetic v w

theorem run_eq (locals : Locals) (a : Formula) :
    a.run locals = (a.expr.eval locals).mapError .fault := by
  induction a with
  | literal n => rfl
  | named name =>
    rw [run, expr, Expr.eval]
    cases locals.get? name <;> rfl
  | plus a ih => exact ih
  | minus a ih =>
    rw [run, expr, Expr.eval, ih]
    cases a.expr.eval locals with
    | error fault => rfl
    | ok v => exact Steps.negate_eq v
  | binary op a b iha ihb =>
    rw [run, expr, Expr.eval, iha, ihb]
    cases a.expr.eval locals with
    | error fault => rfl
    | ok v =>
      cases b.expr.eval locals with
      | error fault => rfl
      | ok w => exact Steps.apply_eq op.arithmetic v w

end Formula

end AudioFeatures.Condition
