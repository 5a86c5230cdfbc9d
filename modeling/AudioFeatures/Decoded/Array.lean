import AudioFeatures.ElementType

/-! # Typed arrays

The bytes of a buffer taken as elements. Where the buffer is aligned for the type and ends with a
whole element, the array is a view of it and not a copy; the elements are the same either way.
-/

namespace AudioFeatures

/-- Bytes in memory, the given distance behind an address that is aligned for every type. -/
structure Buffer where
  bytes : Bytes
  offset : Nat := 0
  deriving DecidableEq, Repr

structure TypedArray where
  type : ElementType
  elements : List (Element type)
  /-- Whether the elements still lie in the buffer that they were taken from. -/
  borrowed : Bool
  deriving DecidableEq

namespace Element

/-- The first `n` elements that the bytes hold. -/
def listOfBytes (t : ElementType) : Nat → Bytes → List (Element t)
  | 0, _ => []
  | n + 1, bytes => ofBytes t (bytes.take t.size) :: listOfBytes t n (bytes.drop t.size)

def listToBytes {t : ElementType} (xs : List (Element t)) : Bytes := xs.flatMap toBytes

@[simp] theorem length_listOfBytes (t : ElementType) (n : Nat) (bytes : Bytes) :
    (listOfBytes t n bytes).length = n := by
  induction n generalizing bytes with
  | zero => rfl
  | succ n ih => simp [listOfBytes, ih]

theorem listOfBytes_listToBytes {t : ElementType} (xs : List (Element t)) (rest : Bytes) :
    listOfBytes t xs.length (listToBytes xs ++ rest) = xs := by
  induction xs with
  | nil => rfl
  | cons x xs ih =>
    have h : x.toBytes.length = t.size := length_toBytes x
    simp only [listToBytes, List.flatMap_cons, List.length_cons, listOfBytes, List.append_assoc]
    rw [← h, List.take_left, List.drop_left, ofBytes_toBytes]
    exact congrArg _ ih

theorem listToBytes_listOfBytes (t : ElementType) (n : Nat) (bytes : Bytes)
    (h : n * t.size ≤ bytes.length) :
    listToBytes (listOfBytes t n bytes) = bytes.take (n * t.size) := by
  induction n generalizing bytes with
  | zero => simp [listOfBytes, listToBytes]
  | succ n ih =>
    rw [Nat.succ_mul] at h ⊢
    have hlen : (bytes.take t.size).length = t.size := by
      rw [List.length_take]; omega
    have ih := ih (bytes.drop t.size) (by rw [List.length_drop]; omega)
    simp only [listToBytes] at ih ⊢
    rw [listOfBytes, List.flatMap_cons, toBytes_ofBytes hlen, ih, Nat.add_comm, List.take_add]

end Element

namespace TypedArray

def length (a : TypedArray) : Nat := a.elements.length

def get? (a : TypedArray) (i : Nat) : Option Scalar := a.elements[i]?.map fun x => ⟨a.type, x⟩

def bytes (a : TypedArray) : Bytes := Element.listToBytes a.elements

/-- Detaches the array from its buffer. -/
def detach (a : TypedArray) : TypedArray := { a with borrowed := false }

end TypedArray

namespace Buffer

/-- The whole elements that the buffer holds; bytes after the last of them are passed over. -/
def toArray (b : Buffer) (t : ElementType) : TypedArray where
  type := t
  elements := Element.listOfBytes t (b.bytes.length / t.size) b.bytes
  borrowed := b.offset % t.size == 0 && b.bytes.length % t.size == 0

/-- The buffer without the bytes behind its last whole element. -/
def whole (b : Buffer) (t : ElementType) : Buffer :=
  { b with bytes := b.bytes.take (b.bytes.length / t.size * t.size) }

end Buffer

end AudioFeatures
