import AudioFeatures.Decoded.Array
import Mathlib

/-! # Views and copies

The bytes of a buffer are seen as elements where they lie, if elements may stand there and the last
of them ends with the bytes; else the elements are copied one by one. Either way they are the same,
and written out they give back the bytes, up to the last whole element.
-/

namespace AudioFeatures

variable {t : ElementType}

theorem Element.length_listToBytes (xs : List (Element t)) :
    (listToBytes xs).length = xs.length * t.size := by
  simp [listToBytes, List.length_flatMap]

namespace Buffer

/-- The element whose bytes are the `i`-th piece of its size. -/
def elementAt (b : Buffer) (t : ElementType) (i : Nat) : Element t :=
  Element.ofBytes t ((b.bytes.drop (i * t.size)).take t.size)

/-- The elements that the bytes are where they lie, at an address that the type may stand at. -/
def view? (b : Buffer) (t : ElementType) : Option (List (Element t)) :=
  if t.size ∣ b.offset ∧ t.size ∣ b.bytes.length then
    some ((List.range (b.bytes.length / t.size)).map (b.elementAt t))
  else none

/-- Cuts pieces of one size off as long as there are whole ones. -/
def pieces (size : Nat) (bytes : Bytes) : List Bytes :=
  if 0 < size ∧ size ≤ bytes.length then bytes.take size :: pieces size (bytes.drop size) else []
termination_by bytes.length
decreasing_by rw [List.length_drop]; omega

/-- The elements read one after the other, each from bytes of its own. -/
def copy (b : Buffer) (t : ElementType) : List (Element t) :=
  (pieces t.size b.bytes).map (Element.ofBytes t)

/-- The view, if there is one, else the copy. -/
def viewOrCopy (b : Buffer) (t : ElementType) : TypedArray :=
  match b.view? t with
  | some xs => ⟨t, xs, true⟩
  | none => ⟨t, b.copy t, false⟩

theorem copy_eq (b : Buffer) (t : ElementType) :
    b.copy t = Element.listOfBytes t (b.bytes.length / t.size) b.bytes := by
  have hpieces (bytes : Bytes) : (pieces t.size bytes).map (Element.ofBytes t) =
      Element.listOfBytes t (bytes.length / t.size) bytes := by
    fun_induction pieces t.size bytes with
    | case1 bytes h ih =>
      have hcount : bytes.length / t.size = (bytes.drop t.size).length / t.size + 1 := by
        rw [List.length_drop, Nat.div_eq_sub_div h.1 h.2]
      rw [hcount, Element.listOfBytes, ← ih]
      rfl
    | case2 bytes h =>
      have hshort : bytes.length < t.size := by
        have := t.size_pos
        omega
      rw [Nat.div_eq_of_lt hshort]
      rfl
  exact hpieces b.bytes

theorem map_elementAt (b : Buffer) (t : ElementType) (n : Nat) :
    (List.range n).map (b.elementAt t) = Element.listOfBytes t n b.bytes := by
  induction n generalizing b with
  | zero => rfl
  | succ n ih =>
    have hnext (i : Nat) : b.elementAt t (i + 1) =
        elementAt { b with bytes := b.bytes.drop t.size } t i := by
      rw [elementAt, elementAt, List.drop_drop, Nat.succ_mul, Nat.add_comm]
    rw [List.range_succ_eq_map, List.map_cons, List.map_map, Element.listOfBytes,
      ← ih { b with bytes := b.bytes.drop t.size }]
    congr 1
    · simp [elementAt]
    · exact List.map_congr_left fun i _ => hnext i

/-- Where there is a view it shows what a copy would hold. -/
theorem view?_eq (b : Buffer) (t : ElementType) : b.view? t =
    if t.size ∣ b.offset ∧ t.size ∣ b.bytes.length then some (b.copy t) else none := by
  rw [view?, map_elementAt, copy_eq]

theorem toArray_eq_viewOrCopy (b : Buffer) (t : ElementType) : b.toArray t = b.viewOrCopy t := by
  rw [viewOrCopy, view?_eq, toArray, ← copy_eq]
  by_cases h : t.size ∣ b.offset ∧ t.size ∣ b.bytes.length
  · simp [h, Nat.mod_eq_zero_of_dvd h.1, Nat.mod_eq_zero_of_dvd h.2]
  · rw [if_neg h]
    have hborrowed : (b.offset % t.size == 0 && b.bytes.length % t.size == 0) = false := by
      simpa [Nat.dvd_iff_mod_eq_zero] using h
    rw [hborrowed]

end Buffer

/-- The longest of the prefixes that whole elements make up. -/
structure ElementType.LongestWhole (t : ElementType) (bytes whole : Bytes) : Prop where
  isPrefix : whole <+: bytes
  dvd : t.size ∣ whole.length
  longest : ∀ other, other <+: bytes → t.size ∣ other.length → other <+: whole

theorem ElementType.longestWhole_take (t : ElementType) (bytes : Bytes) :
    t.LongestWhole bytes (bytes.take (bytes.length / t.size * t.size)) := by
  have hlength : (bytes.take (bytes.length / t.size * t.size)).length =
      bytes.length / t.size * t.size := List.length_take_of_le (Nat.div_mul_le_self _ _)
  refine ⟨List.take_prefix _ _, ?_, fun other hprefix hdvd => ?_⟩
  · rw [hlength]
    exact Nat.dvd_mul_left _ _
  refine List.prefix_of_prefix_length_le hprefix (List.take_prefix _ _) ?_
  obtain ⟨k, hk⟩ := hdvd
  rw [hlength, hk, Nat.mul_comm]
  refine Nat.mul_le_mul_right _ ((Nat.le_div_iff_mul_le t.size_pos).2 ?_)
  rw [Nat.mul_comm, ← hk]
  exact hprefix.length_le

namespace Buffer

/-- Elements written out are read back at every address. What is read of any bytes is, written out,
the longest part of them that whole elements make up. It is read by a view or by a copy, which show
the same elements. -/
theorem toArray_inverse (t : ElementType) :
    (∀ (xs : List (Element t)) (offset : Nat),
      (toArray ⟨Element.listToBytes xs, offset⟩ t).elements = xs) ∧
    (∀ b : Buffer, t.LongestWhole b.bytes (b.toArray t).bytes) ∧
    ∀ b : Buffer, b.toArray t = b.viewOrCopy t ∧ ∀ xs ∈ b.view? t, xs = b.copy t := by
  refine ⟨fun xs offset => ?_, fun b => ?_, fun b => ⟨b.toArray_eq_viewOrCopy t, fun xs hxs => ?_⟩⟩
  · have hread := Element.listOfBytes_listToBytes xs []
    rw [List.append_nil] at hread
    show Element.listOfBytes t ((Element.listToBytes xs).length / t.size) _ = xs
    rw [Element.length_listToBytes, Nat.mul_div_cancel _ t.size_pos, hread]
  · have hbytes : (b.toArray t).bytes = b.bytes.take (b.bytes.length / t.size * t.size) :=
      Element.listToBytes_listOfBytes t _ _ (Nat.div_mul_le_self _ _)
    rw [hbytes]
    exact t.longestWhole_take b.bytes
  · rw [view?_eq] at hxs
    split at hxs
    · exact (Option.some.inj hxs).symm
    · cases hxs

theorem toArray_inverse_aligned :
    let b : Buffer := ⟨[1, 0, 0xff, 0xff], 2⟩
    b.view? .int16 = some [1, 0xffff] ∧ [1, 0xffff] = b.copy .int16 := by
  have h : view? ⟨[1, 0, 0xff, 0xff], 2⟩ .int16 = some [1, 0xffff] := by decide
  exact ⟨h, ((toArray_inverse .int16).2.2 _).2 _ h⟩

end Buffer

end AudioFeatures
