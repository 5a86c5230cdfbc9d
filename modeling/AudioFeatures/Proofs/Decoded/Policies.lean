import AudioFeatures.Proofs.Decoded.Lossless

/-! # Lenient and strict decoding

The policies make the same diagnoses. Where decoding succeeds leniently, it ends strictly with the
first diagnosis as an error, or with the same value if there is none. Of the two rules for rows the
exact one makes more diagnoses.
-/

namespace AudioFeatures

theorem RowRule.multipleOf_admits {count length : Nat}
    (h : RowRule.exactLength.Admits count length) : RowRule.multipleOf.Admits count length :=
  dvd_of_eq (Eq.symm h)

/-- What is left of a lenient result under the strict policy. -/
def Decoded.enforce (d : Decoded) (l : Layout) : Except Error Decoded :=
  match d.diagnostics with
  | [] => .ok d
  | x :: _ => .error (.sizeMismatch l.text (.diagnostic x))

theorem Decoded.enforce_eq_ok_iff {d d' : Decoded} {l : Layout} :
    d.enforce l = .ok d' ↔ d = d' ∧ d.diagnostics = [] := by
  unfold enforce
  split
  case h_1 h => simp [h]
  case h_2 h => simp [h]

namespace Layout

variable {l : Layout} {b : Buffer} {rule : RowRule} {d : Decoded} {e : Error}

/-- A diagnosis is no error under the lenient policy. -/
theorem decode_warn (l : Layout) (b : Buffer) (rule : RowRule) :
    l.decode b ⟨.warn, rule⟩ = l.elementType >>= fun t =>
      if l.rowLength? = some 0 then .error (.malformedFormat l.text)
      else .ok ⟨l.value ((b.whole t).toArray t), l.rowLength?,
        l.diagnose t b.bytes.length rule⟩ := by
  simp only [decode, beq_iff_eq]

theorem decode_error_of_warn (h : l.decode b ⟨.warn, rule⟩ = .ok d) :
    l.decode b ⟨.error, rule⟩ = d.enforce l := by
  obtain ⟨t, ht, hrow, rfl⟩ := decode_eq_ok h
  rw [decode, ht, ok_bind, Decoded.enforce]
  dsimp only
  cases l.diagnose t b.bytes.length rule with
  | nil => simp [hrow]
  | cons x ds => rfl

/-- What fails leniently fails strictly, since the strict policy only adds errors. -/
theorem exists_error_of_warn (h : l.decode b ⟨.warn, rule⟩ = .error e) :
    ∃ e', l.decode b ⟨.error, rule⟩ = .error e' := by
  cases ht : l.elementType with
  | error e' => exact ⟨e', by rw [decode, ht]; rfl⟩
  | ok t =>
    rw [decode_warn, ht, ok_bind] at h
    split at h
    case isFalse => cases h
    case isTrue hrow =>
      rw [decode, ht, ok_bind]
      dsimp only
      split
      · exact ⟨_, rfl⟩
      · exact ⟨_, if_pos (by simp [hrow])⟩

theorem decode_error_eq_ok_iff : l.decode b ⟨.error, rule⟩ = .ok d ↔
    l.decode b ⟨.warn, rule⟩ = .ok d ∧ d.diagnostics = [] := by
  cases hwarn : l.decode b ⟨.warn, rule⟩ with
  | error e =>
    obtain ⟨e', he⟩ := exists_error_of_warn hwarn
    simp [he]
  | ok d' =>
    rw [decode_error_of_warn hwarn, Decoded.enforce_eq_ok_iff, Except.ok.injEq]
    exact and_congr_right fun h => by rw [h]

theorem elementType_ne_sizeMismatch (format : String) (fault : SizeFault) :
    l.elementType ≠ .error (.sizeMismatch format fault) := by
  unfold elementType
  split <;> nofun

theorem decode_warn_ne_sizeMismatch (format : String) (fault : SizeFault) :
    l.decode b ⟨.warn, rule⟩ ≠ .error (.sizeMismatch format fault) := by
  rw [decode_warn]
  cases ht : l.elementType with
  | error e =>
    rintro ⟨⟩
    exact elementType_ne_sizeMismatch format fault ht
  | ok t =>
    rw [ok_bind]
    split <;> nofun

/-- Rows that are exact are whole, so a diagnosis under the rule for multiples is one under the rule
for exact lengths. -/
theorem diagnose_multipleOf {t : ElementType} {size : Nat} (hrow : l.rowLength? ≠ some 0)
    (h : l.diagnose t size .exactLength = []) : l.diagnose t size .multipleOf = [] := by
  rw [diagnose_eq hrow, List.append_eq_nil_iff] at h ⊢
  refine ⟨h.1, ?_⟩
  cases l with
  | scalar | window => rfl
  | fixedArray n element =>
    have hfit := h.2
    simp only [misfits, ite_eq_left_iff, List.cons_ne_nil, imp_false, not_not] at hfit ⊢
    exact RowRule.multipleOf_admits hfit

theorem decode_multipleOf (h : l.decode b ⟨.error, .exactLength⟩ = .ok d) :
    l.decode b ⟨.error, .multipleOf⟩ = .ok d := by
  obtain ⟨hwarn, hclean⟩ := decode_error_eq_ok_iff.1 h
  obtain ⟨t, ht, hrow, rfl⟩ := decode_eq_ok hwarn
  have hexact : l.diagnose t b.bytes.length .exactLength = [] := hclean
  refine decode_error_eq_ok_iff.2 ⟨?_, hclean⟩
  rw [decode_warn, ht, ok_bind, if_neg hrow, diagnose_multipleOf hrow hexact, hexact]

/-- The strict policy lets the clean results of the lenient one pass and refuses the others for
their first diagnosis. What it lets pass under the exact rule for rows passes under the other rule
too. -/
theorem decode_policies (l : Layout) (b : Buffer) (rule : RowRule) :
    (∀ d, l.decode b ⟨.error, rule⟩ = .ok d ↔
      l.decode b ⟨.warn, rule⟩ = .ok d ∧ d.isClean = true) ∧
    (∀ d x ds, l.decode b ⟨.warn, rule⟩ = .ok d → d.diagnostics = x :: ds →
      l.decode b ⟨.error, rule⟩ = .error (.sizeMismatch l.text (.diagnostic x))) ∧
    (∀ format fault, l.decode b ⟨.warn, rule⟩ ≠ .error (.sizeMismatch format fault)) ∧
    ∀ d, l.decode b ⟨.error, .exactLength⟩ = .ok d →
      l.decode b ⟨.error, .multipleOf⟩ = .ok d := by
  refine ⟨fun d => ?_, fun d x ds h hds => ?_, decode_warn_ne_sizeMismatch,
    fun d => decode_multipleOf⟩
  · rw [decode_error_eq_ok_iff, Decoded.isClean, List.isEmpty_iff]
  · rw [decode_error_of_warn h, Decoded.enforce, hds]

/-- Both diagnoses are made of the longer buffer, and none of its first two elements. -/
theorem decode_policies_leftover :
    let l : Layout := .fixedArray 2 (.window (.scalar "int16"))
    let b : Buffer := ⟨[1, 0, 2, 0, 0xff, 0xff, 9], 1⟩
    let d : Decoded := ⟨.array ⟨.int16, [1, 2, 0xffff], false⟩, some 2,
      [.truncated 1 2, .sizeMismatch 3 2]⟩
    let pair : Decoded := ⟨.array ⟨.int16, [1, 2], false⟩, some 2, []⟩
    l.decode b ⟨.warn, .exactLength⟩ = .ok d ∧
      l.decode b ⟨.error, .exactLength⟩ =
        .error (.sizeMismatch "FixedArray<2, Window<int16>>" (.diagnostic (.truncated 1 2))) ∧
      l.decode ⟨[1, 0, 2, 0], 1⟩ ⟨.error, .exactLength⟩ = .ok pair ∧
      l.decode ⟨[1, 0, 2, 0], 1⟩ ⟨.error, .multipleOf⟩ = .ok pair := by
  have h : Layout.decode (.fixedArray 2 (.window (.scalar "int16")))
      ⟨[1, 0, 2, 0, 0xff, 0xff, 9], 1⟩ ⟨.warn, .exactLength⟩ =
        .ok ⟨.array ⟨.int16, [1, 2, 0xffff], false⟩, some 2,
          [.truncated 1 2, .sizeMismatch 3 2]⟩ := by cbv
  have h' : Layout.decode (.fixedArray 2 (.window (.scalar "int16")))
      ⟨[1, 0, 2, 0], 1⟩ ⟨.error, .exactLength⟩ =
        .ok ⟨.array ⟨.int16, [1, 2], false⟩, some 2, []⟩ := by cbv
  exact ⟨h, (decode_policies _ _ _).2.1 _ _ _ h rfl, h',
    (decode_policies _ _ .exactLength).2.2.2 _ h'⟩

end Layout

end AudioFeatures
