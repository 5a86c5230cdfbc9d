import Mathlib
import AudioFeatures.Decoded.Rows

/-! # Columns of decoded values

An array of whole rows becomes a column of lists, unless its rows are longer than a list can be.
Every other array becomes a flat column.
-/

namespace AudioFeatures

variable {d : Decoded} {a : TypedArray} {c : Column} {t : ElementType} {n : Nat} {e : Error}

theorem length_of_mem_splitRows {α : Type} {length n : Nat} {xs row : List α}
    (h : xs.length = n * length) (hrow : row ∈ splitRows length n xs) : row.length = length := by
  induction n generalizing xs with
  | zero => cases hrow
  | succ n ih =>
    rw [Nat.succ_mul] at h
    rcases List.mem_cons.1 hrow with rfl | hrow
    · rw [List.length_take]
      omega
    · exact ih (by rw [List.length_drop]; omega) hrow

namespace TypedArray

/-- The column that shows an array with rows of the given length. -/
inductive HasColumn (a : TypedArray) : Option Nat → Column → Prop where
  | flat {row? : Option Nat} (h : ∀ n ∈ row?, n = 0 ∨ ¬ n ∣ a.length) :
      HasColumn a row? (.flat a.type a.elements)
  | lists {n : Nat} {rows : List (List (Element a.type))} (hpos : 0 < n) (hlt : n < 2 ^ 31)
      (hrows : ∀ row ∈ rows, row.length = n) (h : rows.flatten = a.elements) :
      HasColumn a (some n) (.lists a.type n rows)

end TypedArray

namespace Decoded

/-- Whole rows that are longer than a list of the table format can be. -/
def Oversized (d : Decoded) (t : ElementType) (n : Nat) : Prop :=
  ∃ a, d.value = .array a ∧ a.type = t ∧ d.rowLength? = some n ∧ n ∣ a.length ∧ 2 ^ 31 ≤ n

theorem toColumn_eq_error_iff : d.toColumn = .error e ↔
    ∃ t n, d.Oversized t n ∧ e = .sizeMismatch t.name (.rowLength n) := by
  constructor
  · intro h
    unfold toColumn at h
    split at h
    case h_1 a n hvalue hrow =>
      split at h
      case isTrue => cases h
      case isFalse hwhole =>
        have hdvd : n ∣ a.length := Nat.dvd_of_mod_eq_zero (by omega)
        split at h
        case isTrue hlong =>
          cases h
          exact ⟨a.type, n, ⟨a, hvalue, rfl, hrow, hdvd, hlong⟩, rfl⟩
        case isFalse => cases h
    case h_2 => cases h
  · rintro ⟨t, n, ⟨a, hvalue, rfl, hrow, hdvd, hlong⟩, rfl⟩
    have hmod : a.length % n = 0 := Nat.mod_eq_zero_of_dvd hdvd
    have hwhole : ¬ (n = 0 ∨ a.length % n ≠ 0) := by omega
    simp only [toColumn, hvalue, hrow]
    exact (if_neg hwhole).trans (if_pos hlong)

theorem hasColumn_of_toColumn (ha : d.value = .array a) (h : d.toColumn = .ok c) :
    a.HasColumn d.rowLength? c := by
  simp only [toColumn, ha] at h
  cases hrow : d.rowLength? with
  | none =>
    rw [hrow] at h
    cases h
    exact .flat nofun
  | some n =>
    rw [hrow] at h
    dsimp only at h
    split at h
    case isTrue hflat =>
      cases h
      refine .flat fun m hm => ?_
      cases hm
      exact hflat.imp_right fun hmod hdvd => hmod (Nat.mod_eq_zero_of_dvd hdvd)
    case isFalse hwhole =>
      have hdvd : n ∣ a.length := Nat.dvd_of_mod_eq_zero (by omega)
      split at h
      · cases h
      case isFalse hshort =>
        cases h
        have hlength : a.elements.length = a.length / n * n := (Nat.div_mul_cancel hdvd).symm
        exact .lists (by omega) (by omega) (fun row => length_of_mem_splitRows hlength)
          (flatten_splitRows n _ _ hlength)

end Decoded

end AudioFeatures
