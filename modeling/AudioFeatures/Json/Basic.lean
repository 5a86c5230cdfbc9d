import AudioFeatures.Dict

/-! # JSON values

Integers and fractions are told apart by how they are written. A string literal whose escapes name
half of a surrogate pair spells no text; such a literal may stand where its value does not matter.
-/

namespace AudioFeatures

inductive Number where
  | natural (n : Nat)
  /-- A minus sign and the digits of `n`, which may be zero. -/
  | negative (n : Nat)
  /-- Written with a point or an exponent. -/
  | fraction (literal : String)
  deriving DecidableEq, Repr

inductive Json where
  | null
  | bool (value : Bool)
  | number (value : Number)
  | string (text : Option String)
  | array (items : List Json)
  | object (members : List (Option String × Json))
  deriving Inhabited, Repr

namespace Number

/-- The integer that is written; negative zero is none. -/
def toInt? : Number → Option Int
  | natural n => some n
  | negative 0 => none
  | negative (n + 1) => some (-(n + 1 : Nat))
  | fraction _ => none

def ofInt : Int → Number
  | .ofNat n => natural n
  | .negSucc n => negative (n + 1)

theorem toInt?_ofInt (n : Int) : (ofInt n).toInt? = some n := by
  cases n with
  | ofNat n => rfl
  | negSucc n => simp [ofInt, toInt?, Int.negSucc_eq]

end Number

namespace Json

def text (s : String) : Json := string (some s)

def int (n : Int) : Json := number (.ofInt n)

def nat (n : Nat) : Json := number (.natural n)

/-- An object whose members stand in the given order. -/
def ofMembers (ms : List (String × Json)) : Json := object (ms.map fun m => (some m.1, m.2))

def ofDict {α : Type} (f : α → Json) (d : Dict α) : Json :=
  ofMembers (d.entries.map fun e => (e.1, f e.2))

def ofOption {α : Type} (f : α → Json) : Option α → Json
  | none => null
  | some a => f a

def toInt? : Json → Option Int
  | number n => n.toInt?
  | _ => none

/-- An integer of the given range. -/
def toIntIn? (low high : Int) (j : Json) : Option Int := do
  let n ← j.toInt?
  if low ≤ n ∧ n < high then some n else none

def toUInt64? (j : Json) : Option UInt64 :=
  (j.toIntIn? 0 0x10000000000000000).map fun n => UInt64.ofNat n.toNat

def toUInt32? (j : Json) : Option UInt32 :=
  (j.toIntIn? 0 0x100000000).map fun n => UInt32.ofNat n.toNat

def toInt32? (j : Json) : Option Int32 := (j.toIntIn? (-0x80000000) 0x80000000).map Int32.ofInt

def toBool? : Json → Option Bool
  | bool b => some b
  | _ => none

def toText? : Json → Option String
  | string s => s
  | _ => none

/-- `null` stands for nothing, anything else is read as a value. -/
def toOption? {α : Type} (f : Json → Option α) : Json → Option (Option α)
  | null => some none
  | j => (f j).map some

def toList? {α : Type} (f : Json → Option α) : Json → Option (List α)
  | array items => items.mapM f
  | _ => none

def toDict? {α : Type} (f : Json → Option α) : Json → Option (Dict α)
  | object members => do
    let es ← members.mapM fun m => do return (← m.1, ← f m.2)
    return .ofList es
  | _ => none

/-- The values of the given fields, in the order of `fields`. A record is an object in which each
field occurs at most once among members of other names, or an array of its fields from the first
on. -/
def record? (fields : List String) : Json → Option (List (Option Json))
  | object members => do
    let members ← members.mapM fun m => do return (← m.1, m.2)
    fields.mapM fun field =>
      match members.filter fun m => m.1 == field with
      | [] => some none
      | [m] => some (some m.2)
      | _ => none
  | array items =>
    if items.length ≤ fields.length then
      some (items.map some ++ List.replicate (fields.length - items.length) none)
    else none
  | _ => none

/-- A choice is the name of one of the variants, or an object that gives it the value `null`. -/
def variant? {α : Type} (variants : List (String × α)) : Json → Option α
  | string s => do variants.lookup (← s)
  | object [(s, null)] => do variants.lookup (← s)
  | _ => none

/-- A required field. -/
def required {α : Type} (f : Json → Option α) : Option Json → Option α
  | some j => f j
  | none => none

/-- A field that may be left out. -/
def withDefault {α : Type} (default : α) (f : Json → Option α) : Option Json → Option α
  | some j => f j
  | none => some default

end Json

end AudioFeatures
