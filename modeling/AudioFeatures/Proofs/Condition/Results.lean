import AudioFeatures.Proofs.Condition.Pass
import AudioFeatures.Proofs.Condition.Reader

/-! # Results for trees

Which result of a pass is right for a syntax tree. Where the tree is not passed over, it is what the
tree evaluates to. Inside operands that are passed over the values are made up, and only what went
wrong in reading counts.
-/

namespace AudioFeatures.Condition

variable {α : Type} {l : Level} {t : Token} {f : Expr → Expr → Expr} {a b : Expr} {ls : Links}
  {k : Nat} {locals : Locals} {v w : Value} {holds : Option Bool} {r : Except Fault Value}
  {fault : Fault} {op : Arithmetic}

def faultOf : Except Fault α → Option Fault
  | .ok _ => none
  | .error fault => some fault

@[simp] theorem faultOf_ok (a : α) : faultOf (.ok a) = none := rfl

@[simp] theorem faultOf_error : faultOf (.error fault : Except Fault α) = some fault := rfl

@[simp] theorem faultOf_map {β : Type} (g : α → β) (r : Except Fault α) :
    faultOf (r.map g) = faultOf r := by
  cases r <;> rfl

@[simp] theorem faultOf_settled (r : Except Fault Value) : faultOf (settled (k + 1) r) = none := by
  cases r <;> rfl

/-- The result is right for a tree inside `k` operands that are passed over. -/
def Fits (locals : Locals) (k : Nat) (e : Expr) (r : Except Fault Value) : Prop :=
  match k with
  | 0 => e.eval locals = r
  | _ + 1 => e.fault? = faultOf r

@[simp] theorem fits_zero {e : Expr} : Fits locals 0 e r ↔ e.eval locals = r := .rfl

@[simp] theorem fits_succ {e : Expr} : Fits locals (k + 1) e r ↔ e.fault? = faultOf r := .rfl

namespace Fits

theorem constant : Fits locals k (.constant v) (.ok v) := by cases k <;> rfl

theorem broken : Fits locals k (.broken fault) (.error fault) := by cases k <;> rfl

theorem name {name : String} : Fits locals k (.variable name)
    (settled k (match locals.get? name with
      | some v => .ok v
      | none => .error (.undefined name))) := by
  cases k with
  | zero => rw [settled_zero]; rfl
  | succ k => rw [fits_succ, faultOf_settled]; rfl

/-- After a true left operand the right one is only read. -/
theorem either (ha : Fits locals k a (.ok v))
    (hb : if v.truthy == true then b.fault? = faultOf r else Fits locals k b r) :
    Fits locals k (.either a b)
      (r.map fun w => .bool (if v.truthy == true then true else w.truthy)) := by
  cases k with
  | zero =>
    rw [fits_zero] at ha ⊢
    rw [Expr.eval, ha, ok_bind]
    cases hv : v.truthy <;> rw [hv] at hb
    · rw [if_neg Bool.false_ne_true, show b.eval locals = r from hb]
      cases r <;> rfl
    · rw [if_pos rfl, Expr.skip, show b.fault? = faultOf r from hb]
      cases r <;> rfl
  | succ k => simp_all [Expr.fault?]

/-- After a false left operand the right one is only read. -/
theorem both (ha : Fits locals k a (.ok v))
    (hb : if v.truthy == false then b.fault? = faultOf r else Fits locals k b r) :
    Fits locals k (.both a b)
      (r.map fun w => .bool (if v.truthy == false then false else w.truthy)) := by
  cases k with
  | zero =>
    rw [fits_zero] at ha ⊢
    rw [Expr.eval, ha, ok_bind]
    cases hv : v.truthy <;> rw [hv] at hb
    · rw [if_neg Bool.false_ne_true, Expr.skip, show b.fault? = faultOf r from hb]
      cases r <;> rfl
    · rw [if_pos rfl, show b.eval locals = r from hb]
      cases r <;> rfl
  | succ k => simp_all [Expr.fault?]

theorem negation (h : Fits locals k a (.ok v)) :
    Fits locals k (.negation a) (.ok (.bool !v.truthy)) := by
  cases k <;> simp_all [Expr.eval, Expr.fault?, ok_bind, pure, Except.pure]

theorem arithmetic (ha : Fits locals k a (.ok v)) (hb : Fits locals k b (.ok w)) :
    Fits locals k (.arithmetic op a b) (settled k (op.apply v w)) := by
  cases k <;> simp_all [Expr.eval, Expr.fault?, ok_bind]

theorem arithmetic_error (ha : Fits locals k a (.ok v)) (hb : Fits locals k b (.error fault)) :
    Fits locals k (.arithmetic op a b) (.error fault) := by
  cases k <;> simp_all [Expr.eval, Expr.fault?, bind, Except.bind]

theorem negate (h : Fits locals k a (.ok v)) :
    Fits locals k (.negate a) (settled k v.negate) := by
  cases k <;> simp_all [Expr.eval, Expr.fault?, ok_bind]

theorem unclosed (h : Fits locals k a (.ok v)) :
    Fits locals k (.unclosed a) (.error .unclosed) := by
  cases k <;> simp_all [Expr.eval, Expr.fault?, bind, Except.bind]

/-- A fault in the only operand is the fault of the whole. -/
theorem operator_error {g : Expr → Expr} (hg : g ∈ [Expr.negation, .negate, .unclosed])
    (h : Fits locals k a (.error fault)) : Fits locals k (g a) (.error fault) := by
  simp only [List.mem_cons, List.not_mem_nil, or_false] at hg
  rcases hg with rfl | rfl | rfl <;> cases k <;>
    simp_all [Expr.eval, Expr.fault?, bind, Except.bind]

/-- A fault in the left operand is the fault of the whole. -/
theorem join_error (hj : Joins l t f) (h : Fits locals k a (.error fault)) :
    Fits locals k (f a b) (.error fault) := by
  cases k with
  | zero => cases hj <;> simp_all [Expr.eval, bind, Except.bind]
  | succ k => simp_all [hj.fault?]

theorem readMore_error (h : Fits locals k a (.error fault)) (n : Nat) (ts : List Token) :
    Fits locals k (Expr.readMore n l a ts).1 (.error fault) := by
  induction n generalizing a ts with
  | zero => exact h
  | succ n ih =>
    rcases ts with _ | ⟨t, ts⟩
    · exact h
    by_cases hj : ∃ f, Joins l t f
    · obtain ⟨f, hf⟩ := hj
      rw [Expr.readMore_join hf]
      exact ih (h.join_error hf) _
    · rwa [Expr.readMore_of_not_joins fun f hf => hj ⟨f, hf⟩]

end Fits

def FitsLinks (locals : Locals) (v : Value) (holds : Option Bool) (k : Nat) (ls : Links)
    (r : Except Fault Value) : Prop :=
  match k with
  | 0 => ls.close locals v holds = r
  | _ + 1 => ls.fault? = faultOf r

theorem fitsLinks_zero : FitsLinks locals v holds 0 ls r ↔ ls.close locals v holds = r := .rfl

theorem fitsLinks_succ : FitsLinks locals v holds (k + 1) ls r ↔ ls.fault? = faultOf r := .rfl

namespace FitsLinks

theorem nil : FitsLinks locals v holds k .nil (.ok ((holds.map .bool).getD v)) := by
  cases k <;> rfl

theorem cons {op : Comparison} (ha : Fits locals k a (.ok w))
    (h : FitsLinks locals w (some (holds.getD true && op.holds v w)) k ls r) :
    FitsLinks locals v holds k (.cons op a ls) r := by
  cases k with
  | zero => rw [fitsLinks_zero, Links.close, fits_zero.1 ha, ok_bind, fitsLinks_zero.1 h]
  | succ k =>
    rw [fitsLinks_succ, Links.fault?, fits_succ.1 ha, ← fitsLinks_succ.1 h]
    rfl

theorem cons_error {op : Comparison} (ha : Fits locals k a (.error fault)) :
    FitsLinks locals v holds k (.cons op a ls) (.error fault) := by
  cases k with
  | zero =>
    rw [fitsLinks_zero, Links.close, fits_zero.1 ha]
    rfl
  | succ k =>
    rw [fitsLinks_succ, Links.fault?, fits_succ.1 ha]
    rfl

end FitsLinks

/-- The expression of a first operand and the comparisons after it. -/
def Links.after (a : Expr) : Links → Expr
  | .nil => a
  | .cons op b ls => .chain a (.cons op b ls)

theorem Fits.after (ha : Fits locals k a (.ok v)) (h : FitsLinks locals v none k ls r) :
    Fits locals k (ls.after a) r := by
  rcases ls with _ | ⟨op, b, ls⟩ <;> cases k
  · exact ha.trans h
  · exact ha.trans h
  · rw [Links.after, fits_zero, Expr.eval_chain (by simp), fits_zero.1 ha, ok_bind]
    exact h
  · rw [Links.after, fits_succ, Expr.fault?, fits_succ.1 ha]
    exact h

theorem Fits.after_error (ha : Fits locals k a (.error fault)) (ls : Links) :
    Fits locals k (ls.after a) (.error fault) := by
  rcases ls with _ | ⟨op, b, ls⟩
  · exact ha
  · rw [Links.after]
    cases k <;> simp_all [Expr.eval, Expr.fault?, bind, Except.bind]

end AudioFeatures.Condition
