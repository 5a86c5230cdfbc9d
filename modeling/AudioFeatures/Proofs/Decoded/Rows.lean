import AudioFeatures.Proofs.Decoded.Columns
import AudioFeatures.Proofs.Decoded.Lossless

/-! # Rows of decoded values

A decoded value is shown in rows in two ways, as a matrix and as a column of lists. Both exist where
the row length divides the number of elements and is not too great for them, and both show the same
rows.
-/

namespace AudioFeatures

/-- Elements together with their type. -/
abbrev TypedElements := (t : ElementType) × List (Element t)

namespace Decoded

variable {d : Decoded} {l : Layout} {b : Buffer} {options : DecodeOptions} {t : ElementType}
  {m : Matrix} {n : Nat}

/-- Only arrays have rows, and no row is empty. -/
def RowsOfArray (d : Decoded) : Prop :=
  ∀ n, d.rowLength? = some n → 0 < n ∧ ∃ a, d.value = .array a

theorem rowsOfArray_of_decode (h : l.decode b options = .ok d) : d.RowsOfArray := by
  intro n hn
  have hd := Layout.decodes_of_decode h
  obtain ⟨element, rfl⟩ := (hd.rows n).1 hn
  refine ⟨hd.rows_pos n hn, ?_⟩
  cases hv : d.value with
  | array a => exact ⟨a, rfl⟩
  | scalar s =>
    obtain ⟨⟨name, hname⟩, -⟩ := hd.scalar.1 ⟨s, hv⟩
    cases hname

/-- The elements make up rows of length `n`, possibly none. -/
def HasRows (d : Decoded) (n : Nat) : Prop :=
  d.rowLength? = some n ∧ n ∣ d.value.elements.length

theorem HasRows.unique {k : Nat} (h : d.HasRows n) (h' : d.HasRows k) : n = k :=
  Option.some.inj (h.1.symm.trans h'.1)

/-- The elements in rows of length `n`. -/
def inRows (d : Decoded) (n : Nat) : List (List (Element d.value.type)) :=
  splitRows n (d.value.elements.length / n) d.value.elements

theorem HasRows.flatten_inRows (h : d.HasRows n) : (d.inRows n).flatten = d.value.elements :=
  flatten_splitRows n _ _ (Nat.div_mul_cancel h.2).symm

theorem HasRows.length_of_mem_inRows (h : d.HasRows n) {row : List (Element d.value.type)}
    (hrow : row ∈ d.inRows n) : row.length = n :=
  length_of_mem_splitRows (Nat.div_mul_cancel h.2).symm hrow

theorem matrix?_eq_some_iff (hd : d.RowsOfArray) : d.matrix? t = some m ↔
    ∃ n, d.HasRows n ∧ d.value.type = t ∧ n < 2 ^ 63 ∧
      m = ⟨d.value.type, n, d.inRows n⟩ := by
  rcases d with ⟨v, row?, ds⟩
  cases row? with
  | none => simp [matrix?, HasRows]
  | some n =>
    obtain ⟨-, a, rfl⟩ := hd n rfl
    simp [matrix?, HasRows, DecodedValue.array?, DecodedValue.type, DecodedValue.elements,
      TypedArray.length, inRows, Nat.dvd_iff_mod_eq_zero, eq_comm, and_assoc, and_left_comm]

/-- The three ways in which a value becomes a column. -/
theorem toColumn_cases (hd : d.RowsOfArray) :
    (∃ n, d.HasRows n ∧ n < 2 ^ 31 ∧ d.toColumn = .ok (.lists d.value.type n (d.inRows n))) ∨
    (∃ n e, d.HasRows n ∧ 2 ^ 31 ≤ n ∧ d.toColumn = .error e) ∨
    ((∀ n, ¬d.HasRows n) ∧ d.toColumn = .ok (.flat d.value.type d.value.elements)) := by
  rcases d with ⟨v, row?, ds⟩
  cases row? with
  | none =>
    have hnone : ∀ n, ¬HasRows ⟨v, none, ds⟩ n := fun n h => nomatch h.1
    exact .inr (.inr ⟨hnone, by cases v <;> rfl⟩)
  | some n =>
    obtain ⟨hpos, a, rfl⟩ := hd n rfl
    by_cases hdvd : n ∣ a.length
    · have hmod : a.length % n = 0 := Nat.mod_eq_zero_of_dvd hdvd
      have hwhole : ¬(n = 0 ∨ a.length % n ≠ 0) := by omega
      have hrows : HasRows ⟨.array a, some n, ds⟩ n := ⟨rfl, hdvd⟩
      rcases Nat.lt_or_ge n (2 ^ 31) with hlt | hge
      · exact .inl ⟨n, hrows, hlt, (if_neg hwhole).trans (if_neg (Nat.not_le.2 hlt))⟩
      · exact .inr (.inl ⟨n, _, hrows, hge, (if_neg hwhole).trans (if_pos hge)⟩)
    · have hflat : n = 0 ∨ a.length % n ≠ 0 :=
        .inr fun hmod => hdvd (Nat.dvd_of_mod_eq_zero hmod)
      refine .inr (.inr ⟨?_, if_pos hflat⟩)
      rintro k ⟨⟨⟩, hk⟩
      exact hdvd hk

/-- What a value shows as a matrix and as a column. -/
structure Views (d : Decoded) : Prop where
  matrix : ∀ t, (∃ m, d.matrix? t = some m) ↔
    ∃ n, d.HasRows n ∧ d.value.type = t ∧ n ≤ 2 ^ 63 - 1
  lists : ∀ n, (∃ t rows, d.toColumn = .ok (.lists t n rows)) ↔ d.HasRows n ∧ n ≤ 2 ^ 31 - 1
  error : (∃ e, d.toColumn = .error e) ↔ ∃ n, d.HasRows n ∧ 2 ^ 31 - 1 < n
  flat : (∃ t xs, d.toColumn = .ok (.flat t xs)) ↔ ∀ n, ¬d.HasRows n
  /-- Where both exist they hold the same rows. -/
  agree : ∀ t m c, d.matrix? t = some m → d.toColumn = .ok c →
    c = .lists m.type m.rowLength m.rows
  /-- The rows are of one length and hold the elements in their order. -/
  rows : ∀ t m, d.matrix? t = some m → (∀ row ∈ m.rows, row.length = m.rowLength) ∧
    (⟨m.type, m.rows.flatten⟩ : TypedElements) = ⟨d.value.type, d.value.elements⟩
  elements : ∀ c, d.toColumn = .ok c →
    (⟨c.type, c.elements⟩ : TypedElements) = ⟨d.value.type, d.value.elements⟩
  scalar : ∀ s, d.value = .scalar s → d.toColumn = .ok (.flat s.type [s.element])

theorem toColumn_eq_lists_iff (hd : d.RowsOfArray) :
    (∃ t rows, d.toColumn = .ok (.lists t n rows)) ↔ d.HasRows n ∧ n ≤ 2 ^ 31 - 1 := by
  obtain ⟨k, hk, hlt, hc⟩ | ⟨k, e, hk, hge, hc⟩ | ⟨hnone, hc⟩ := toColumn_cases hd <;> rw [hc]
  · constructor
    · rintro ⟨_, _, ⟨⟩⟩
      exact ⟨hk, by omega⟩
    · rintro ⟨hn, -⟩
      obtain rfl := hk.unique hn
      exact ⟨_, _, rfl⟩
  · refine ⟨nofun, fun ⟨hn, hle⟩ => ?_⟩
    obtain rfl := hk.unique hn
    omega
  · exact ⟨nofun, fun ⟨hn, _⟩ => absurd hn (hnone n)⟩

theorem exists_error_toColumn_iff (hd : d.RowsOfArray) :
    (∃ e, d.toColumn = .error e) ↔ ∃ n, d.HasRows n ∧ 2 ^ 31 - 1 < n := by
  obtain ⟨k, hk, hlt, hc⟩ | ⟨k, e, hk, hge, hc⟩ | ⟨hnone, hc⟩ := toColumn_cases hd <;> rw [hc]
  · refine ⟨nofun, fun ⟨n, hn, hgt⟩ => ?_⟩
    obtain rfl := hk.unique hn
    omega
  · exact ⟨fun _ => ⟨k, hk, by omega⟩, fun _ => ⟨e, rfl⟩⟩
  · exact ⟨nofun, fun ⟨n, hn, _⟩ => absurd hn (hnone n)⟩

theorem toColumn_eq_flat_iff (hd : d.RowsOfArray) :
    (∃ t xs, d.toColumn = .ok (.flat t xs)) ↔ ∀ n, ¬d.HasRows n := by
  obtain ⟨k, hk, -, hc⟩ | ⟨k, e, hk, -, hc⟩ | ⟨hnone, hc⟩ := toColumn_cases hd <;> rw [hc]
  · exact ⟨nofun, fun h => absurd hk (h k)⟩
  · exact ⟨nofun, fun h => absurd hk (h k)⟩
  · exact ⟨fun _ => hnone, fun _ => ⟨_, _, rfl⟩⟩

theorem toColumn_of_matrix? {c : Column} (hd : d.RowsOfArray) (hm : d.matrix? t = some m)
    (h : d.toColumn = .ok c) : c = .lists m.type m.rowLength m.rows := by
  obtain ⟨n, hn, -, -, rfl⟩ := (matrix?_eq_some_iff hd).1 hm
  obtain ⟨k, hk, -, hc⟩ | ⟨k, e, -, -, hc⟩ | ⟨hnone, -⟩ := toColumn_cases hd
  · obtain rfl := hk.unique hn
    cases hc.symm.trans h
    rfl
  · cases hc.symm.trans h
  · exact absurd hn (hnone n)

theorem rows_of_matrix? (hd : d.RowsOfArray) (hm : d.matrix? t = some m) :
    (∀ row ∈ m.rows, row.length = m.rowLength) ∧
      (⟨m.type, m.rows.flatten⟩ : TypedElements) = ⟨d.value.type, d.value.elements⟩ := by
  obtain ⟨n, hn, -, -, rfl⟩ := (matrix?_eq_some_iff hd).1 hm
  exact ⟨fun row => hn.length_of_mem_inRows, congrArg _ hn.flatten_inRows⟩

theorem toColumn_scalar {s : Scalar} (hs : d.value = .scalar s) :
    d.toColumn = .ok (.flat s.type [s.element]) := by
  rw [toColumn, hs]
  rfl

theorem elements_toColumn {c : Column} (hd : d.RowsOfArray) (h : d.toColumn = .ok c) :
    (⟨c.type, c.elements⟩ : TypedElements) = ⟨d.value.type, d.value.elements⟩ := by
  obtain ⟨k, hk, -, hc⟩ | ⟨k, e, -, -, hc⟩ | ⟨-, hc⟩ := toColumn_cases hd
  · cases hc.symm.trans h
    exact congrArg _ hk.flatten_inRows
  · cases hc.symm.trans h
  · cases hc.symm.trans h
    rfl

/-- A value that was decoded is a matrix exactly where it has rows that memory can hold, and a
column of lists exactly where it has rows that a list can hold. No view loses an element. -/
theorem views_of_decode (h : l.decode b options = .ok d) : d.Views := by
  have hd := rowsOfArray_of_decode h
  constructor
  case matrix =>
    intro t
    constructor
    · rintro ⟨m, hm⟩
      obtain ⟨n, hn, ht, hlt, -⟩ := (matrix?_eq_some_iff hd).1 hm
      exact ⟨n, hn, ht, by omega⟩
    · rintro ⟨n, hn, ht, hle⟩
      exact ⟨_, (matrix?_eq_some_iff hd).2 ⟨n, hn, ht, by omega, rfl⟩⟩
  case lists => exact fun n => toColumn_eq_lists_iff hd
  case error => exact exists_error_toColumn_iff hd
  case flat => exact toColumn_eq_flat_iff hd
  case agree => exact fun t m c hm h => toColumn_of_matrix? hd hm h
  case rows => exact fun t m hm => rows_of_matrix? hd hm
  case elements => exact fun c h => elements_toColumn hd h
  case scalar => exact fun s hs => toColumn_scalar hs

/-- Two rows of two are shown in both ways. An empty array has rows of every length, none of them;
they are too long for a list here. -/
theorem views_of_decode_arrays :
    (let l : Layout := .fixedArray 2 (.scalar "short")
      let d : Decoded := ⟨.array ⟨.int16, [1, 2, 3, 4], true⟩, some 2, []⟩
      let rows : List (List (Element .int16)) := [[1, 2], [3, 4]]
      l.decode ⟨[1, 0, 2, 0, 3, 0, 4, 0], 0⟩ {} = .ok d ∧ d.Views ∧
        d.matrix? .int16 = some ⟨.int16, 2, rows⟩ ∧ d.toColumn = .ok (.lists .int16 2 rows)) ∧
    (let l : Layout := .fixedArray 4294967296 (.scalar "float")
      let d : Decoded := ⟨.array ⟨.float32, [], true⟩, some 4294967296, []⟩
      l.decode ⟨[], 0⟩ {} = .ok d ∧ d.Views ∧
        d.matrix? .float32 = some ⟨.float32, 4294967296, []⟩ ∧ ∃ e, d.toColumn = .error e) := by
  constructor
  · have h : Layout.decode (.fixedArray 2 (.scalar "short")) ⟨[1, 0, 2, 0, 3, 0, 4, 0], 0⟩ {} =
        .ok ⟨.array ⟨.int16, [1, 2, 3, 4], true⟩, some 2, []⟩ := by cbv
    exact ⟨h, views_of_decode h, rfl, rfl⟩
  · have h : Layout.decode (.fixedArray 4294967296 (.scalar "float")) ⟨[], 0⟩ {} =
        .ok ⟨.array ⟨.float32, [], true⟩, some 4294967296, []⟩ := by cbv
    have hviews := views_of_decode h
    exact ⟨h, hviews, rfl, hviews.error.2 ⟨4294967296, ⟨rfl, by decide⟩, by decide⟩⟩

end Decoded

end AudioFeatures
