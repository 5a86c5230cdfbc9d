import AudioFeatures.Condition.Value
import AudioFeatures.Proofs.Fallible

/-! # Floor quotients of words

Machine words are divided towards zero. The quotient rounded towards minus infinity and its
remainder come from that by a correction where the signs differ. Some of the single steps test that
the result is a word and others halt if it is none; integer arithmetic never halts.
-/

namespace AudioFeatures.Condition

variable {n x y : Int} {a b : Int64}

/-- The number has 64 bits. -/
def IsWord (n : Int) : Prop := -2 ^ 63 ≤ n ∧ n < 2 ^ 63

instance : Decidable (IsWord n) := inferInstanceAs (Decidable (_ ∧ _))

theorem isWord_toInt (a : Int64) : IsWord a.toInt := ⟨a.le_toInt, a.toInt_lt⟩

theorem toInt_ofInt (h : IsWord n) : (Int64.ofInt n).toInt = n := Int64.toInt_ofInt_of_le h.1 h.2

theorem checked_eq (n : Int) :
    Value.checked n = if IsWord n then .ok (.int (Int64.ofInt n)) else .error .overflow := rfl

/-! ## The range of quotients -/

/-- The least word has no quotient by minus one that is a word. -/
theorem isWord_fdiv_iff (hx : IsWord x) (hy : y ≠ 0) :
    IsWord (x.fdiv y) ↔ ¬(x = -2 ^ 63 ∧ y = -1) := by
  constructor
  · rintro h ⟨rfl, rfl⟩
    exact absurd h (by decide)
  · intro h
    have hle := Int.natAbs_fdiv_le_natAbs x y
    obtain ⟨hlow, hhigh⟩ := hx
    by_contra hnot
    -- only the greatest absolute value remains, and it is positive
    have hq : x.fdiv y = 2 ^ 63 := by
      unfold IsWord at hnot
      omega
    have hleast : x = -2 ^ 63 := by omega
    rcases Int.lt_or_gt_of_ne hy with hneg | hpos
    · have hquot : (-x) / (-y) = 2 ^ 63 := by
        rw [← Int.fdiv_eq_ediv_of_nonneg _ (by omega), Int.neg_fdiv_neg, hq]
      have hmul := Int.ediv_mul_le (-x) (b := -y) (by omega)
      rw [hquot] at hmul
      omega
    · have hmul := Int.mul_fdiv_self_le (x := x) hpos
      rw [hq] at hmul
      omega

theorem isWord_fmod (hy : IsWord y) (hne : y ≠ 0) : IsWord (x.fmod y) := by
  obtain ⟨hlow, hhigh⟩ := hy
  rcases Int.lt_or_gt_of_ne hne with hneg | hpos
  · have hnonneg := Int.fmod_nonneg_of_pos (-x) (b := -y) (by omega)
    have hlt := Int.fmod_lt_of_pos (-x) (b := -y) (by omega)
    rw [Int.neg_fmod_neg] at hnonneg hlt
    exact ⟨by omega, by omega⟩
  · have hnonneg := Int.fmod_nonneg_of_pos x hpos
    have hlt := Int.fmod_lt_of_pos x hpos
    exact ⟨by omega, by omega⟩

/-! ## From truncation to the floor -/

/-- The correction of a quotient that was rounded towards zero. -/
theorem fdiv_eq_of_tdiv (hy : y ≠ 0) : x.fdiv y =
    if x.tmod y ≠ 0 ∧ ¬(x < 0 ↔ y < 0) then x.tdiv y - 1 else x.tdiv y := by
  rw [Int.fdiv_eq_tdiv]
  simp only [ne_eq, ← Int.dvd_iff_tmod_eq_zero]
  by_cases hdvd : y ∣ x
  · simp [hdvd]
  rcases Int.lt_or_gt_of_ne hy with hneg | hpos
  · have hsign : y.sign = -1 := Int.sign_eq_neg_one_of_neg hneg
    by_cases hx : x < 0
    · simp [hdvd, hx, hneg, Int.not_le.2 hx, Int.not_le.2 hneg, hsign]
    · simp [hdvd, hx, hneg, Int.not_lt.1 hx, Int.not_le.2 hneg]
  · have hsign : y.sign = 1 := Int.sign_eq_one_of_pos hpos
    by_cases hx : x < 0
    · simp [hdvd, hx, Int.not_lt.2 hpos.le, Int.not_le.2 hx, hpos.le, hsign]
    · simp [hdvd, hx, Int.not_lt.2 hpos.le, Int.not_lt.1 hx, hpos.le]

/-- A remainder other than zero has the sign of the dividend. -/
theorem tmod_neg_iff (h : x.tmod y ≠ 0) : x.tmod y < 0 ↔ x < 0 := by
  rcases lt_or_ge x 0 with hx | hx
  · have hnonneg := Int.tmod_nonneg y (a := -x) (by omega)
    rw [Int.neg_tmod] at hnonneg
    omega
  · have hnonneg := Int.tmod_nonneg y hx
    omega

/-- The correction of the remainder goes with that of the quotient. -/
theorem fmod_eq_of_tmod (hy : y ≠ 0) : x.fmod y =
    if x.tmod y ≠ 0 ∧ ¬(x.tmod y < 0 ↔ y < 0) then x.tmod y + y else x.tmod y := by
  rw [Int.fmod_def, fdiv_eq_of_tdiv hy]
  by_cases hzero : x.tmod y = 0
  · simp only [hzero, ne_eq, not_true_eq_false, false_and, if_false]
    rw [← Int.tmod_def, hzero]
  · simp only [tmod_neg_iff hzero]
    split
    · rw [Int.tmod_def]
      ring
    · rw [Int.tmod_def]

/-! ## Single steps -/

/-- Why a calculation with words ends without a word. -/
inductive Stop where
  | fault (f : Fault)
  | halt
  deriving DecidableEq

namespace Steps

/-- A result that is tested to be a word. -/
def tested (n : Int) : Except Stop Int64 :=
  if IsWord n then .ok (Int64.ofInt n) else .error (.fault .overflow)

/-- A result that is taken to be a word. -/
def untested (n : Int) : Except Stop Int64 :=
  if IsWord n then .ok (Int64.ofInt n) else .error .halt

/-- Words have a truncated quotient and remainder, unless the divisor is zero or the least word is
divided by minus one. -/
def Divides (a b : Int64) : Prop := ¬(b = 0 ∨ a = Int64.minValue ∧ b = -1)

instance : Decidable (Divides a b) := inferInstanceAs (Decidable (¬_))

def testedQuotient (a b : Int64) : Except Stop Int64 :=
  if Divides a b then .ok (a / b) else .error (.fault .overflow)

def testedRemainder (a b : Int64) : Except Stop Int64 :=
  if Divides a b then .ok (a % b) else .error (.fault .overflow)

def untestedRemainder (a b : Int64) : Except Stop Int64 :=
  if Divides a b then .ok (a % b) else .error .halt

def floorQuotient (a b : Int64) : Except Stop Int64 := do
  let q ← testedQuotient a b
  let r ← untestedRemainder a b
  if r ≠ 0 ∧ ¬(a < 0 ↔ b < 0) then tested (q.toInt - 1) else return q

def floorRemainder (a b : Int64) : Except Stop Int64 := do
  let r ← testedRemainder a b
  if r ≠ 0 ∧ ¬(r < 0 ↔ b < 0) then untested (r.toInt + b.toInt) else return r

/-- Arithmetic on words. -/
def arithmetic (op : Arithmetic) (a b : Int64) : Except Stop Value :=
  if op.divides && b == 0 then .error (.fault .divisionByZero)
  else match op with
    | .add => (tested (a.toInt + b.toInt)).map .int
    | .subtract => (tested (a.toInt - b.toInt)).map .int
    | .multiply => (tested (a.toInt * b.toInt)).map .int
    | .floorDivide => (floorQuotient a b).map .int
    | .modulo => (floorRemainder a b).map .int
    | .divide => .ok (.float (a.toFloat / b.toFloat))

theorem tested_eq (n : Int) : (tested n).map .int = (Value.checked n).mapError .fault := by
  rw [tested, checked_eq]
  split <;> rfl

theorem untested_eq (h : IsWord n) : untested n = .ok (Int64.ofInt n) := if_pos h

theorem toInt_ne_zero (h : b ≠ 0) : b.toInt ≠ 0 := fun h0 => h (Int64.toInt_inj.1 h0)

theorem divides_iff (hb : b ≠ 0) : Divides a b ↔ IsWord (a.toInt.fdiv b.toInt) := by
  rw [isWord_fdiv_iff (isWord_toInt a) (toInt_ne_zero hb), Divides]
  simp only [hb, false_or, ← Int64.toInt_inj]
  rfl

theorem toInt_div (h : Divides a b) : (a / b).toInt = a.toInt.tdiv b.toInt := by
  rw [Divides, not_or, not_and_or] at h
  rcases h.2 with ha | hb
  · exact Int64.toInt_div_of_ne_left a b ha
  · exact Int64.toInt_div_of_ne_right a b hb

theorem mod_ne_zero_iff (a b : Int64) : a % b ≠ 0 ↔ a.toInt.tmod b.toInt ≠ 0 := by
  rw [ne_eq, ← Int64.toInt_inj, Int64.toInt_mod]
  rfl

theorem floorQuotient_eq (hb : b ≠ 0) :
    floorQuotient a b = tested (a.toInt.fdiv b.toInt) := by
  by_cases h : Divides a b
  · simp only [floorQuotient, testedQuotient, untestedRemainder, if_pos h, ok_bind,
      mod_ne_zero_iff, Int64.lt_iff_toInt_lt, Int64.toInt_zero]
    rw [fdiv_eq_of_tdiv (toInt_ne_zero hb), toInt_div h]
    split
    · rfl
    · rw [← toInt_div h, tested, if_pos (isWord_toInt _), Int64.ofInt_toInt]
      rfl
  · rw [floorQuotient, testedQuotient, if_neg h, tested, if_neg fun hw => h ((divides_iff hb).2 hw)]
    rfl

theorem floorRemainder_eq (h : Divides a b) (hb : b ≠ 0) :
    floorRemainder a b = .ok (Int64.ofInt (a.toInt.fmod b.toInt)) := by
  simp only [floorRemainder, testedRemainder, if_pos h, ok_bind, mod_ne_zero_iff,
    Int64.lt_iff_toInt_lt, Int64.toInt_zero, Int64.toInt_mod]
  have hword : IsWord (a.toInt.fmod b.toInt) := isWord_fmod (isWord_toInt b) (toInt_ne_zero hb)
  rw [fmod_eq_of_tmod (toInt_ne_zero hb)] at hword ⊢
  split
  case isTrue hc =>
    rw [if_pos hc] at hword
    exact untested_eq hword
  case isFalse =>
    rw [← Int64.toInt_mod, Int64.ofInt_toInt]
    rfl

/-- No step of integer arithmetic halts. -/
theorem arithmetic_eq (op : Arithmetic) (a b : Int64) :
    arithmetic op a b = (op.onInts a b).mapError .fault := by
  unfold arithmetic Arithmetic.onInts
  by_cases hzero : (op.divides && b == 0) = true
  · rw [if_pos hzero, if_pos hzero]
    rfl
  rw [if_neg hzero, if_neg hzero]
  cases op with
  | add | subtract | multiply => exact tested_eq _
  | divide => rfl
  | floorDivide =>
    have hb : b ≠ 0 := by simpa [Arithmetic.divides] using hzero
    simp only [floorQuotient_eq hb, tested_eq]
  | modulo =>
    have hb : b ≠ 0 := by simpa [Arithmetic.divides] using hzero
    by_cases h : Divides a b
    · have hmod : IsWord (a.toInt.fmod b.toInt) := isWord_fmod (isWord_toInt b) (toInt_ne_zero hb)
      simp only [floorRemainder_eq h hb, checked_eq, if_pos hmod, if_pos ((divides_iff hb).1 h),
        ok_bind]
      rfl
    · rw [floorRemainder, testedRemainder, if_neg h]
      simp only [checked_eq, if_neg fun hw => h ((divides_iff hb).2 hw)]
      rfl

/-- An operation on values. -/
def apply (op : Arithmetic) (v w : Value) : Except Stop Value :=
  match v.toInt?, w.toInt? with
  | some a, some b => arithmetic op a b
  | _, _ => (op.onFloats v.toFloat w.toFloat).mapError .fault

def negate (v : Value) : Except Stop Value :=
  match v with
  | .float x => .ok (.float (-x))
  | .int a => (tested (-a.toInt)).map .int
  | .bool b => (tested (if b then -1 else 0)).map .int

theorem apply_eq (op : Arithmetic) (v w : Value) :
    apply op v w = (op.apply v w).mapError .fault := by
  unfold apply Arithmetic.apply
  cases v.toInt? with
  | none => rfl
  | some a =>
    cases w.toInt? with
    | none => rfl
    | some b => exact arithmetic_eq op a b

theorem negate_eq (v : Value) : negate v = v.negate.mapError .fault := by
  cases v with
  | float x => rfl
  | int a => exact tested_eq _
  | bool b => exact tested_eq _

end Steps

end AudioFeatures.Condition
