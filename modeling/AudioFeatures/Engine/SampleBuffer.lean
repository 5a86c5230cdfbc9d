/-! # Sample buffers

The engine reads samples from a buffer of fixed size, and may leave other samples in it.
-/

namespace AudioFeatures

inductive SampleBuffer where
  /-- Zeros only, as in a buffer that was not used yet. -/
  | silent (size : Nat)
  | filled (samples : List Int16)
  deriving DecidableEq, Repr

namespace SampleBuffer

def size : SampleBuffer → Nat
  | silent n => n
  | filled samples => samples.length

def toList : SampleBuffer → List Int16
  | silent n => List.replicate n 0
  | filled samples => samples

/-- The buffer with its first samples replaced; more samples than it holds do not get in. -/
def overwrite (b : SampleBuffer) (samples : List Int16) : SampleBuffer :=
  match samples with
  | [] => b
  | samples => filled (samples.take b.size ++ b.toList.drop samples.length)

@[simp] theorem length_toList (b : SampleBuffer) : b.toList.length = b.size := by
  cases b <;> simp [toList, size]

@[simp] theorem size_overwrite (b : SampleBuffer) (samples : List Int16) :
    (b.overwrite samples).size = b.size := by
  unfold overwrite
  split
  · rfl
  · show (samples.take b.size ++ b.toList.drop samples.length).length = b.size
    rw [List.length_append, List.length_take, List.length_drop, length_toList]
    omega

/-- As many samples as the buffer holds replace all that was in it. -/
theorem toList_overwrite {b : SampleBuffer} {samples : List Int16} (h : samples.length = b.size) :
    (b.overwrite samples).toList = samples := by
  unfold overwrite
  split
  · have : b.toList = [] := List.eq_nil_of_length_eq_zero (by simpa using h.symm)
    exact this
  · have hl := b.length_toList
    have h₀ : b.toList.drop samples.length = [] := List.drop_eq_nil_of_le (by omega)
    rw [h₀, ← h]
    simp [toList]

end SampleBuffer

end AudioFeatures
