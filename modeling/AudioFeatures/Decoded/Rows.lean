import AudioFeatures.Decoded.Basic

/-! # Rows and columns

A value whose count is a multiple of its row length can be viewed as a matrix. As a column of a
table such a value becomes one list a row, and every other value a flat column.
-/

namespace AudioFeatures

variable {α : Type}

/-- The first `n` rows of `length` items each. -/
def splitRows (length : Nat) : Nat → List α → List (List α)
  | 0, _ => []
  | n + 1, xs => xs.take length :: splitRows length n (xs.drop length)

theorem flatten_splitRows (length n : Nat) (xs : List α) (h : xs.length = n * length) :
    (splitRows length n xs).flatten = xs := by
  induction n generalizing xs with
  | zero => simp_all [splitRows]
  | succ n ih =>
    rw [Nat.succ_mul] at h
    simp [splitRows, ih (xs.drop length) (by rw [List.length_drop]; omega)]

structure Matrix where
  type : ElementType
  rowLength : Nat
  rows : List (List (Element type))
  deriving DecidableEq

inductive Column where
  | flat (type : ElementType) (elements : List (Element type))
  | lists (type : ElementType) (rowLength : Nat) (rows : List (List (Element type)))
  deriving DecidableEq

namespace Column

def type : Column → ElementType
  | flat t _ => t
  | lists t _ _ => t

def elements : (c : Column) → List (Element c.type)
  | flat _ xs => xs
  | lists _ _ rows => rows.flatten

end Column

namespace Decoded

/-- The value as a matrix of elements of type `t`. -/
def matrix? (d : Decoded) (t : ElementType) : Option Matrix := do
  let n ← d.rowLength?
  let a ← d.value.array?
  if a.type = t ∧ a.length % n = 0 ∧ n < 0x8000000000000000 then
    some ⟨a.type, n, splitRows n (a.length / n) a.elements⟩
  else none

/-- The value as a column; the length of a list has 31 bits. -/
def toColumn (d : Decoded) : Except Error Column :=
  match d.value, d.rowLength? with
  | .array a, some n =>
    if n = 0 ∨ a.length % n ≠ 0 then .ok (.flat a.type a.elements)
    else if 0x80000000 ≤ n then .error (.sizeMismatch a.type.name (.rowLength n))
    else .ok (.lists a.type n (splitRows n (a.length / n) a.elements))
  | v, _ => .ok (.flat v.type v.elements)

end Decoded

end AudioFeatures
