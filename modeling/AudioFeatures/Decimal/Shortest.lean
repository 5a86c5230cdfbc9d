/-! # Shortest decimals

Among the decimals that round to a given binary number, the shortest has the fewest digits and lies
nearest to it; of two equally near ones the larger is taken. All arithmetic is on natural numbers.
-/

namespace AudioFeatures

/-- The number `digits · 10 ^ exponent`. -/
structure Decimal where
  digits : Nat
  exponent : Int
  deriving DecidableEq, Repr

/-- The positive number `mantissa · 2 ^ exponent` among the numbers of its format. -/
structure Dyadic where
  mantissa : Nat
  exponent : Int
  /-- The next smaller number is only half as far away as the next larger one. -/
  narrowBelow : Bool
  deriving DecidableEq, Repr

namespace Dyadic

/-- Quarters of a unit in the last place, as a fraction. -/
def quarters (x : Dyadic) (n : Nat) : Nat × Nat :=
  (n <<< (x.exponent - 2).toNat, 1 <<< (2 - x.exponent).toNat)

/-- The sign of `d · 10 ^ k - num / den`. -/
def compareDecimal (d : Nat) (k : Int) (f : Nat × Nat) : Ordering :=
  compare (d * Nat.pow 10 k.toNat * f.2) (f.1 * Nat.pow 10 (-k).toNat)

/-- Whether `d · 10 ^ k` rounds to `x`; the end points do so when the mantissa is even. -/
def Near (x : Dyadic) (d : Nat) (k : Int) : Bool :=
  let low := x.quarters (4 * x.mantissa - if x.narrowBelow then 1 else 2)
  let high := x.quarters (4 * x.mantissa + 2)
  let even := x.mantissa % 2 == 0
  (match compareDecimal d k low with | .gt => true | .eq => even | .lt => false) &&
    (match compareDecimal d k high with | .lt => true | .eq => even | .gt => false)

/-- The least `j` from `start` on, within `fuel` steps, for which `10 ^ j · num` reaches `den`. -/
def leadingZeros (num den : Nat) : Nat → Nat → Nat
  | 0, start => start
  | fuel + 1, start =>
    if den ≤ num * Nat.pow 10 start then start else leadingZeros num den fuel (start + 1)

/-- The `p` with `10 ^ (p - 1) ≤ x < 10 ^ p`. -/
def magnitude (x : Dyadic) : Int :=
  let (num, den) := x.quarters (4 * x.mantissa)
  if den ≤ num then (Nat.toDigits 10 (num / den)).length
  else 1 - (leadingZeros num den (Nat.log2 den + 1) 1 : Nat)

/-- The neighbours of `x` on the grid of step `10 ^ k`, and the one to take if both will do. -/
def neighbours (x : Dyadic) (k : Int) : Nat × Nat :=
  let (num, den) := x.quarters (4 * x.mantissa)
  let d := num * Nat.pow 10 (-k).toNat / (den * Nat.pow 10 k.toNat)
  let upper := compareDecimal (2 * d + 1) k (2 * num, den) != .gt
  if upper then (d + 1, d) else (d, d + 1)

/-- The decimal with `n` digits that lies nearest, if one of them rounds to `x`. -/
def withDigits? (x : Dyadic) (n : Nat) : Option Decimal :=
  let k := x.magnitude - n
  let (first, second) := x.neighbours k
  if x.Near first k then some ⟨first, k⟩
  else if x.Near second k then some ⟨second, k⟩
  else none

end Dyadic

namespace Decimal

/-- Moves the zeros at the end of the digits into the exponent. -/
def strip : Nat → Decimal → Decimal
  | 0, x => x
  | fuel + 1, x =>
    if x.digits % 10 == 0 && x.digits != 0 then strip fuel ⟨x.digits / 10, x.exponent + 1⟩ else x

/-- Seventeen digits suffice for every number of double precision. -/
def shortest (x : Dyadic) : Decimal :=
  match (List.range 17).findSome? fun n => x.withDigits? (n + 1) with
  | some d => strip 17 d
  | none => ⟨0, 0⟩

end Decimal

end AudioFeatures
