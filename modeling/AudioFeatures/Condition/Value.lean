import AudioFeatures.Condition.Token
import AudioFeatures.Dict

/-! # Values of conditions

Integers have 64 bits and do not wrap. A truth value counts as 0 or 1 wherever a number is wanted.
-/

namespace AudioFeatures.Condition

inductive Value where
  | int (n : Int64)
  | float (x : Float)
  | bool (b : Bool)
  deriving DecidableEq

/-- The variables that a condition may name. -/
abbrev Locals := Dict Value

namespace Value

def truthy : Value → Bool
  | int n => n != 0
  | float x => !(x == 0)
  | bool b => b

def toInt? : Value → Option Int64
  | int n => some n
  | bool b => some (if b then 1 else 0)
  | float _ => none

def toFloat : Value → Float
  | int n => n.toFloat
  | float x => x
  | bool b => if b then 1 else 0

def text : Value → String
  | int n => toString n.toInt
  | float x => floatText .plain x
  | bool b => if b then "True" else "False"

/-- An integer result, which must have 64 bits. -/
def checked (n : Int) : Except Fault Value :=
  if -0x8000000000000000 ≤ n ∧ n < 0x8000000000000000 then .ok (int (Int64.ofInt n))
  else .error .overflow

def negate : Value → Except Fault Value
  | float x => .ok (float (-x))
  | int n => checked (-n.toInt)
  | bool b => checked (if b then -1 else 0)

end Value

namespace Arithmetic

def divides : Arithmetic → Bool
  | divide | floorDivide | modulo => true
  | _ => false

/-- Quotients are rounded towards minus infinity; a remainder exists where the quotient does. -/
def onInts (op : Arithmetic) (a b : Int64) : Except Fault Value :=
  if op.divides && b == 0 then .error .divisionByZero
  else match op with
    | add => Value.checked (a.toInt + b.toInt)
    | subtract => Value.checked (a.toInt - b.toInt)
    | multiply => Value.checked (a.toInt * b.toInt)
    | floorDivide => Value.checked (a.toInt.fdiv b.toInt)
    | modulo => do
      let _ ← Value.checked (a.toInt.fdiv b.toInt)
      Value.checked (a.toInt.fmod b.toInt)
    | divide => .ok (.float (a.toFloat / b.toFloat))

def onFloats (op : Arithmetic) (a b : Float) : Except Fault Value :=
  if op.divides && b == 0 then .error .divisionByZero
  else .ok <| .float <| match op with
    | add => a + b
    | subtract => a - b
    | multiply => a * b
    | divide => a / b
    | floorDivide => (a / b).floor
    | modulo => a - b * (a / b).floor

/-- Integers stay integers except under `/`. -/
def apply (op : Arithmetic) (a b : Value) : Except Fault Value :=
  match a.toInt?, b.toInt? with
  | some m, some n => op.onInts m n
  | _, _ => op.onFloats a.toFloat b.toFloat

end Arithmetic

namespace Comparison

def onInts (op : Comparison) (a b : Int64) : Bool :=
  match op with
  | equal => a == b
  | notEqual => a != b
  | less => a < b
  | atMost => a ≤ b
  | greater => b < a
  | atLeast => b ≤ a

/-- A NaN differs from everything, itself included, and has no place in the order. -/
def onFloats (op : Comparison) (a b : Float) : Bool :=
  match op with
  | equal => a == b
  | notEqual => !(a == b)
  | less => a < b
  | atMost => a ≤ b
  | greater => b < a
  | atLeast => b ≤ a

def holds (op : Comparison) (a b : Value) : Bool :=
  match a.toInt?, b.toInt? with
  | some m, some n => op.onInts m n
  | _, _ => op.onFloats a.toFloat b.toFloat

end Comparison

end AudioFeatures.Condition
