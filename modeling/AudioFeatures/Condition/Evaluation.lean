import AudioFeatures.Condition.Lexer
import AudioFeatures.Condition.Value

/-! # Evaluating conditions

A condition is read and evaluated in one pass over its tokens. From the loosest to the tightest
binding there are `or`, `and`, `not`, comparisons, sums, terms, signs and primaries; binary
operators group to the left and comparisons form chains. The first fault ends the pass.

The right operand of `or` after a true left one, and of `and` after a false one, is passed over: it
must be well formed, but what it evaluates to does not matter and may be made up.
-/

namespace AudioFeatures.Condition

/-- Where a pass stands, and inside how many operands that are passed over. -/
structure Cursor where
  pos : Nat := 0
  skipping : Nat := 0

/-- A part of a pass. One that fails leaves the cursor where it failed. -/
abbrev Step (α : Type) := ExceptT Fault (StateM Cursor) α

/-- The operator that a token is. Some are written as words. -/
def Token.operator? : Token → Option Symbol
  | symbol s => some s
  | word "or" => some .either
  | word "and" => some .both
  | word "not" => some .negation
  | _ => none

namespace Symbol

def comparison? : Symbol → Option Comparison
  | comparison op => some op
  | _ => none

/-- The operators of sums. -/
def additive? : Symbol → Option Arithmetic
  | arithmetic .add => some .add
  | arithmetic .subtract => some .subtract
  | _ => none

/-- The operators of terms. -/
def multiplicative? : Symbol → Option Arithmetic
  | arithmetic .add | arithmetic .subtract => none
  | arithmetic op => some op
  | _ => none

end Symbol

/-- A condition under evaluation. -/
structure Evaluator where
  tokens : List Token
  locals : Locals

namespace Evaluator

def advance : Step Unit := modify fun c => { c with pos := c.pos + 1 }

/-- Drops a fault of evaluation in an operand that is passed over. -/
def settle (result : Except Fault Value) : Step Value := do
  match result with
  | .ok v => return v
  | .error fault => if 0 < (← get).skipping then return .int 0 else throw fault

/-- Passes over an operand. -/
def skip (operand : Step Value) : Step Unit := ExceptT.mk do
  modify fun c => { c with skipping := c.skipping + 1 }
  let result ← operand.run
  modify fun c => { c with skipping := c.skipping - 1 }
  return result.map fun _ => ()

variable (x : Evaluator)

def peek : Step (Option Token) := return x.tokens[(← get).pos]?

/-- Goes on behind the next token if it is an operator among some. -/
def eatAmong {α : Type} (among : Symbol → Option α) : Step (Option α) := do
  match ((← x.peek).bind Token.operator?).bind among with
  | some a =>
    advance
    return some a
  | none => return none

/-- Goes on behind the next token if it is the operator. -/
def eat (s : Symbol) : Step Bool :=
  return (← x.eatAmong fun s' => if s' = s then some s else none).isSome

/-- The value of a word. -/
def word (name : String) : Step Value :=
  match name with
  | "True" | "true" => return .bool true
  | "False" | "false" => return .bool false
  | "and" | "or" | "not" => throw (.keyword name)
  | _ => settle <|
    match x.locals.get? name with
    | some v => .ok v
    | none => .error (.undefined name)

mutual

def either : Nat → Step Value
  | 0 => throw .unexpectedEnd
  | fuel + 1 => do eitherMore fuel (← both fuel)

/-- Goes on with the operands that `or` joins to a value. -/
def eitherMore : Nat → Value → Step Value
  | 0, v => return v
  | fuel + 1, v => do
    if ← x.eat .either then
      if v.truthy then
        skip (both fuel)
        eitherMore fuel (.bool true)
      else eitherMore fuel (.bool (← both fuel).truthy)
    else return v

def both : Nat → Step Value
  | 0 => throw .unexpectedEnd
  | fuel + 1 => do bothMore fuel (← negation fuel)

/-- Goes on with the operands that `and` joins to a value. -/
def bothMore : Nat → Value → Step Value
  | 0, v => return v
  | fuel + 1, v => do
    if ← x.eat .both then
      if v.truthy then bothMore fuel (.bool (← negation fuel).truthy)
      else
        skip (negation fuel)
        bothMore fuel (.bool false)
    else return v

def negation : Nat → Step Value
  | 0 => throw .unexpectedEnd
  | fuel + 1 => do
    if ← x.eat .negation then return .bool !(← negation fuel).truthy
    else comparison fuel

def comparison : Nat → Step Value
  | 0 => throw .unexpectedEnd
  | fuel + 1 => do comparisonMore fuel (← sum fuel) none

/-- Goes on with a chain. `v` is the operand before, and `holds` tells whether all comparisons so
far hold, if there were any. -/
def comparisonMore : Nat → Value → Option Bool → Step Value
  | 0, v, holds => return (holds.map .bool).getD v
  | fuel + 1, v, holds => do
    match ← x.eatAmong Symbol.comparison? with
    | some op =>
      let w ← sum fuel
      comparisonMore fuel w (some (holds.getD true && op.holds v w))
    | none => return (holds.map .bool).getD v

def sum : Nat → Step Value
  | 0 => throw .unexpectedEnd
  | fuel + 1 => do sumMore fuel (← term fuel)

def sumMore : Nat → Value → Step Value
  | 0, v => return v
  | fuel + 1, v => do
    match ← x.eatAmong Symbol.additive? with
    | some op => sumMore fuel (← settle (op.apply v (← term fuel)))
    | none => return v

def term : Nat → Step Value
  | 0 => throw .unexpectedEnd
  | fuel + 1 => do termMore fuel (← sign fuel)

def termMore : Nat → Value → Step Value
  | 0, v => return v
  | fuel + 1, v => do
    match ← x.eatAmong Symbol.multiplicative? with
    | some op => termMore fuel (← settle (op.apply v (← sign fuel)))
    | none => return v

def sign : Nat → Step Value
  | 0 => throw .unexpectedEnd
  | fuel + 1 => do
    if ← x.eat (.arithmetic .subtract) then settle (← sign fuel).negate
    else if ← x.eat (.arithmetic .add) then sign fuel
    else primary fuel

def primary : Nat → Step Value
  | 0 => throw .unexpectedEnd
  | fuel + 1 => do
    match ← x.peek with
    | none => throw .unexpectedEnd
    | some t =>
      advance
      match t with
      | .int n => return .int n
      | .float y => return .float y
      | .word name => x.word name
      | .symbol s => throw (.symbol s)
      | .closing => throw .closing
      | .opening =>
        let v ← either fuel
        match ← x.peek with
        | some .closing =>
          advance
          return v
        | _ => throw .unclosed

end

end Evaluator

/-- The value of a whole condition. Each token is passed by at most eight levels. -/
def evaluate (condition : String) (locals : Locals) : Except Fault Value := do
  let ts ← tokenize condition
  if ts.isEmpty then .error .empty
  else
    let (result, c) := (Evaluator.either ⟨ts, locals⟩ (9 * ts.length + 9)).run.run {}
    let v ← result
    match ts[c.pos]? with
    | some t => .error (.trailing t)
    | none => .ok v

end AudioFeatures.Condition
