import AudioFeatures.Decimal.Shortest

/-! # The text of a number

Double precision numbers are written with the fewest digits that read back. Two styles are in use:
plain text never has an exponent, marked text shows by a point or an exponent that the number is
no integer.
-/

namespace AudioFeatures.Decimal

structure Style where
  /-- Whether a number whose leading digit has this place is written without an exponent. -/
  positional : Int → Bool
  /-- Whether a whole number keeps `.0`. -/
  pointZero : Bool

def Style.plain : Style := ⟨fun _ => true, false⟩

def Style.marked : Style := ⟨fun place => -4 ≤ place && place < 16, true⟩

def digitChars (x : Decimal) : List Char := Nat.toDigits 10 x.digits

/-- The place of the leading digit. -/
def place (x : Decimal) : Int := x.exponent + x.digitChars.length - 1

def positional (s : Style) (x : Decimal) : List Char :=
  let ds := x.digitChars
  if 0 ≤ x.exponent then
    ds ++ List.replicate x.exponent.toNat '0' ++ if s.pointZero then ['.', '0'] else []
  else
    let fraction := (-x.exponent).toNat
    if fraction < ds.length then
      ds.take (ds.length - fraction) ++ '.' :: ds.drop (ds.length - fraction)
    else ['0', '.'] ++ List.replicate (fraction - ds.length) '0' ++ ds

def scientific (x : Decimal) : List Char :=
  let mantissa := match x.digitChars with
    | [] => []
    | [d] => [d]
    | d :: ds => d :: '.' :: ds
  mantissa ++ 'e' :: (toString x.place).toList

def text (s : Style) (x : Decimal) : List Char :=
  if s.positional x.place then positional s x else scientific x

end AudioFeatures.Decimal

namespace AudioFeatures

/-- What the bits of a double precision number say. -/
inductive FloatClass where
  | nan
  | infinite (negative : Bool)
  | zero (negative : Bool)
  | finite (negative : Bool) (magnitude : Dyadic)
  deriving DecidableEq, Repr

namespace FloatClass

def ofBits (bits : UInt64) : FloatClass :=
  let n := bits.toNat
  let negative := 0x8000000000000000 ≤ n
  let exponent : Nat := n / 0x10000000000000 % 0x800
  let fraction := n % 0x10000000000000
  if exponent == 2047 then if fraction == 0 then .infinite negative else .nan
  else if exponent == 0 then
    if fraction == 0 then .zero negative else .finite negative ⟨fraction, -1074, false⟩
  else .finite negative
    ⟨0x10000000000000 + fraction, (exponent : Int) - 1075, fraction == 0 && 1 < exponent⟩

def text (s : Decimal.Style) : FloatClass → List Char
  | nan => ['N', 'a', 'N']
  | infinite negative => sign negative ++ ['i', 'n', 'f']
  | zero negative => sign negative ++ Decimal.positional s ⟨0, 0⟩
  | finite negative x => sign negative ++ Decimal.text s (Decimal.shortest x)
where
  sign (negative : Bool) : List Char := if negative then ['-'] else []

end FloatClass

/-- The shortest text that reads back as `x`. -/
def floatText (s : Decimal.Style) (x : Float) : String :=
  String.ofList ((FloatClass.ofBits x.toBits).text s)

end AudioFeatures
