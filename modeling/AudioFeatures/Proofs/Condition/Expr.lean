import AudioFeatures.Condition.Value
import AudioFeatures.Proofs.Fallible

/-! # Syntax trees of conditions

From the loosest to the tightest binding: `or`, `and`, `not`, comparisons, sums, terms, signs and
primaries. Binary operators group to the left and comparisons form chains. Reading stops at the
first token that fits no rule, and the tree holds the fault in its place.

A tree is evaluated from left to right and the first fault counts. The right operand of `or` after a
true left one, and of `and` after a false one, is not evaluated; it must only be well formed.
-/

namespace AudioFeatures.Condition

mutual

inductive Expr where
  | constant (v : Value)
  | variable (name : String)
  | either (a b : Expr)
  | both (a b : Expr)
  | negation (a : Expr)
  | chain (first : Expr) (links : Links)
  | arithmetic (op : Arithmetic) (a b : Expr)
  | negate (a : Expr)
  /-- Reading stopped here. -/
  | broken (fault : Fault)
  /-- Reading stopped where the closing parenthesis should be. -/
  | unclosed (a : Expr)

/-- The comparisons of a chain after its first operand. -/
inductive Links where
  | nil
  | cons (op : Comparison) (operand : Expr) (rest : Links)

end

mutual

/-- The fault at which reading stopped. -/
def Expr.fault? : Expr → Option Fault
  | .constant _ | .variable _ => none
  | .either a b | .both a b | .arithmetic _ a b => a.fault?.or b.fault?
  | .negation a | .negate a => a.fault?
  | .chain first links => first.fault?.or links.fault?
  | .broken fault => some fault
  | .unclosed a => a.fault?.or (some .unclosed)

def Links.fault? : Links → Option Fault
  | .nil => none
  | .cons _ operand rest => operand.fault?.or rest.fault?

end

/-- How tightly an expression binds. -/
inductive Level where
  | either | both | negation | comparison | sum | term | sign | primary
  deriving DecidableEq, Repr

namespace Level

/-- The operator by which a token joins two operands of the level below. -/
def join? : Level → Token → Option (Expr → Expr → Expr)
  | either, .symbol .either => some .either
  | either, .word "or" => some .either
  | both, .symbol .both => some .both
  | both, .word "and" => some .both
  | sum, .symbol (.arithmetic .add) => some (.arithmetic .add)
  | sum, .symbol (.arithmetic .subtract) => some (.arithmetic .subtract)
  | term, .symbol (.arithmetic .multiply) => some (.arithmetic .multiply)
  | term, .symbol (.arithmetic .divide) => some (.arithmetic .divide)
  | term, .symbol (.arithmetic .floorDivide) => some (.arithmetic .floorDivide)
  | term, .symbol (.arithmetic .modulo) => some (.arithmetic .modulo)
  | _, _ => none

def next : Level → Level
  | either => both
  | both => negation
  | negation => comparison
  | comparison => sum
  | sum => term
  | term => sign
  | sign | primary => primary

end Level

namespace Token

def isNegation : Token → Bool
  | symbol .negation => true
  | word "not" => true
  | _ => false

/-- The expression that a token is by itself; keywords and symbols are none. -/
def primary : Token → Expr
  | int n => .constant (.int n)
  | float x => .constant (.float x)
  | word "True" | word "true" => .constant (.bool true)
  | word "False" | word "false" => .constant (.bool false)
  | word "and" => .broken (.keyword "and")
  | word "or" => .broken (.keyword "or")
  | word "not" => .broken (.keyword "not")
  | word name => .variable name
  | symbol s => .broken (.symbol s)
  | opening => .broken .unexpectedEnd
  | closing => .broken .closing

end Token

namespace Expr

/-- An expression of one token, and the tokens after it unless reading stops there. -/
def ofToken (t : Token) (rest : List Token) : Expr × List Token :=
  match t.primary with
  | broken fault => (broken fault, [])
  | e => (e, rest)

mutual

/-- Reads an expression of the given level from the front of the tokens. -/
def read : Nat → Level → List Token → Expr × List Token
  | 0, _, _ => (broken .unexpectedEnd, [])
  | fuel + 1, .negation, ts =>
    match ts with
    | [] => read fuel .comparison []
    | t :: rest =>
      if t.isNegation then
        let (a, rest) := read fuel .negation rest
        (negation a, rest)
      else read fuel .comparison (t :: rest)
  | fuel + 1, .comparison, ts =>
    let (first, rest) := read fuel .sum ts
    match readLinks fuel rest with
    | (.nil, rest) => (first, rest)
    | (links, rest) => (chain first links, rest)
  | fuel + 1, .sign, ts =>
    match ts with
    | .symbol (.arithmetic .subtract) :: rest =>
      let (a, rest) := read fuel .sign rest
      (negate a, rest)
    | .symbol (.arithmetic .add) :: rest => read fuel .sign rest
    | ts => read fuel .primary ts
  | _ + 1, .primary, [] => (broken .unexpectedEnd, [])
  | fuel + 1, .primary, .opening :: rest =>
    match read fuel .either rest with
    | (a, .closing :: rest) => (a, rest)
    | (a, _) => (unclosed a, [])
  | _ + 1, .primary, t :: rest => ofToken t rest
  | fuel + 1, level, ts =>
    let (a, rest) := read fuel level.next ts
    readMore fuel level a rest

/-- Joins further operands of a level to `a`. -/
def readMore : Nat → Level → Expr → List Token → Expr × List Token
  | 0, _, a, ts => (a, ts)
  | _ + 1, _, a, [] => (a, [])
  | fuel + 1, level, a, t :: rest =>
    match level.join? t with
    | some join =>
      let (b, rest) := read fuel level.next rest
      readMore fuel level (join a b) rest
    | none => (a, t :: rest)

/-- Reads comparisons for as long as they follow. -/
def readLinks : Nat → List Token → Links × List Token
  | fuel + 1, .symbol (.comparison op) :: rest =>
    let (operand, rest) := read fuel .sum rest
    let (links, rest) := readLinks fuel rest
    (.cons op operand links, rest)
  | _, ts => (.nil, ts)

end

/-- The expression at the front of the tokens, and the tokens that remain; none do where reading
stopped. Each token is passed by at most eight levels. -/
def ofTokens (ts : List Token) : Expr × List Token := read (9 * ts.length + 9) .either ts

end Expr

/-- An operand that is passed over. -/
def Expr.skip (e : Expr) (v : Bool) : Except Fault Value :=
  match e.fault? with
  | some fault => .error fault
  | none => .ok (.bool v)

mutual

def Expr.eval (locals : Locals) : Expr → Except Fault Value
  | .constant v => .ok v
  | .variable name =>
    match locals.get? name with
    | some v => .ok v
    | none => .error (.undefined name)
  | .either a b => do
    if (← a.eval locals).truthy then b.skip true
    else return .bool (← b.eval locals).truthy
  | .both a b => do
    if (← a.eval locals).truthy then return .bool (← b.eval locals).truthy
    else b.skip false
  | .negation a => do return .bool !(← a.eval locals).truthy
  | .chain first links => do
    let v ← first.eval locals
    return .bool (← links.eval locals v)
  | .arithmetic op a b => do
    let x ← a.eval locals
    let y ← b.eval locals
    op.apply x y
  | .negate a => do (← a.eval locals).negate
  | .broken fault => .error fault
  | .unclosed a => do
    let _ ← a.eval locals
    .error .unclosed

/-- Whether every comparison of a chain holds; all operands are evaluated. -/
def Links.eval (locals : Locals) : Links → Value → Except Fault Bool
  | .nil, _ => .ok true
  | .cons op operand rest, v => do
    let w ← operand.eval locals
    let holds ← rest.eval locals w
    return op.holds v w && holds

end

/-! ## A chain from left to right -/

/-- The value of a chain from the operand `v` on. `holds` tells whether the comparisons before hold,
if there are any. -/
def Links.close (locals : Locals) (v : Value) (holds : Option Bool) : Links → Except Fault Value
  | .nil => .ok ((holds.map .bool).getD v)
  | .cons op operand rest => do
    let w ← operand.eval locals
    rest.close locals w (some (holds.getD true && op.holds v w))

theorem Links.close_some {locals : Locals} {h : Bool} : (ls : Links) → (v : Value) →
    ls.close locals v (some h) = (ls.eval locals v).map fun h' => .bool (h && h')
  | .nil, v => by rw [close, Links.eval]; simp [Except.map]
  | .cons op operand rest, v => by
    rw [close, Links.eval]
    cases operand.eval locals with
    | error fault => rfl
    | ok w =>
      rw [ok_bind, ok_bind, close_some rest w]
      cases rest.eval locals w with
      | error fault => rfl
      | ok h' => exact congrArg (fun h => Except.ok (Value.bool h)) (Bool.and_assoc _ _ _)

/-- No comparison of a chain is evaluated before the ones to its left. -/
theorem Expr.eval_chain {locals : Locals} {first : Expr} {ls : Links} (h : ls ≠ .nil) :
    (Expr.chain first ls).eval locals =
      first.eval locals >>= fun v => ls.close locals v none := by
  rw [Expr.eval]
  cases first.eval locals with
  | error fault => rfl
  | ok v =>
    rcases ls with _ | ⟨op, operand, rest⟩
    · exact absurd rfl h
    rw [ok_bind, ok_bind, Links.close, Links.eval]
    cases operand.eval locals with
    | error fault => rfl
    | ok w =>
      rw [ok_bind, ok_bind, Links.close_some]
      cases rest.eval locals w <;> rfl

end AudioFeatures.Condition
