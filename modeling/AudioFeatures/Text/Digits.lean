/-! # Decimal digits

Reading a run of ASCII digits as a number.
-/

namespace AudioFeatures.Text

def natOfDigits (ds : List Char) : Nat := ds.foldl (fun n d => n * 10 + (d.toNat - 48)) 0

/-- The text that follows the first occurrence of `marker`. -/
def after? (marker : List Char) : List Char → Option (List Char)
  | [] => if marker.isEmpty then some [] else none
  | c :: s =>
    if marker.isPrefixOf (c :: s) then some ((c :: s).drop marker.length) else after? marker s

@[simp] theorem natOfDigits_nil : natOfDigits [] = 0 := rfl

/-- The decimal digits of a number are read as the number. -/
theorem natOfDigits_toDigits (n : Nat) : natOfDigits (Nat.toDigits 10 n) = n := by
  have hfold : natOfDigits (Nat.toDigits 10 n) = Nat.ofDigitChars 10 (Nat.toDigits 10 n) 0 := by
    simp only [natOfDigits, Nat.ofDigitChars, Nat.mul_comm 10]
    rfl
  rw [hfold, Nat.ofDigitChars_ten_toDigits]

theorem after?_append (marker s : List Char) : after? marker (marker ++ s) = some s := by
  match marker with
  | [] => cases s <;> simp [after?]
  | m :: ms =>
    have h : (m :: ms).isPrefixOf (m :: (ms ++ s)) = true := by
      simp [List.isPrefixOf_iff_prefix]
    rw [List.cons_append, after?, if_pos h]
    simp

end AudioFeatures.Text
