import AudioFeatures.Proofs.Decoded.Columns
import AudioFeatures.Proofs.Extractor.Batches
import AudioFeatures.Scripting.Objects

/-! # Calculations of scripts

A script that asks for no exceptions gets a dictionary of all results: the exception of a value that
could not be decoded stands in place of the value. Rows that are too long for a list of the table
format are noticed only when the value is made a column, and then the exception is raised.
-/

namespace AudioFeatures

open Engine

namespace Scripting

variable {d : Decoded} {t : ElementType} {n : Nat} {result : Except Error Decoded} {value : Value}

/-- What a script gets for a result. -/
inductive Shows : Except Error Decoded → Value → Prop where
  | scalar {d : Decoded} {s : Scalar} (h : d.value = .scalar s) : Shows (.ok d) (.ofScalar s)
  | array {d : Decoded} {a : TypedArray} {c : Column} (h : d.value = .array a)
      (hc : a.HasColumn d.rowLength? c) : Shows (.ok d) (.array c)
  | exception (e : Error) : Shows (.error e) (.exception (.failed e))

/-- A result of which a script gets something. -/
def Fits (result : Except Error Decoded) : Prop := ∀ d t n, result = .ok d → ¬ d.Oversized t n

namespace Value

theorem ofDecoded_eq_error (h : d.Oversized t n) :
    ofDecoded d = .error (.failed (.sizeMismatch t.name (.rowLength n))) := by
  have hcolumn := Decoded.toColumn_eq_error_iff.2 ⟨t, n, h, rfl⟩
  obtain ⟨a, hvalue, -⟩ := h
  simp only [ofDecoded, hvalue, hcolumn]
  rfl

/-- The value of a result. -/
def ofResult (raising : Bool) : Except Error Decoded → Except Exception Value
  | .ok d => ofDecoded d
  | .error e => if raising then .error (.failed e) else .ok (.exception (.failed e))

theorem exists_ofResult (h : Fits result) :
    ∃ value, ofResult false result = .ok value ∧ Shows result value := by
  cases result with
  | error e => exact ⟨_, rfl, .exception e⟩
  | ok d =>
    show ∃ value, ofDecoded d = .ok value ∧ _
    cases hvalue : d.value with
    | scalar s => exact ⟨.ofScalar s, by rw [ofDecoded, hvalue], .scalar hvalue⟩
    | array a =>
      cases hcolumn : d.toColumn with
      | ok c =>
        refine ⟨.array c, ?_, .array hvalue (Decoded.hasColumn_of_toColumn hvalue hcolumn)⟩
        simp only [ofDecoded, hvalue, hcolumn]
        rfl
      | error e =>
        obtain ⟨t, n, hlong, -⟩ := Decoded.toColumn_eq_error_iff.1 hcolumn
        exact absurd hlong (h d t n rfl)

end Value

theorem values_eq_mapM (raising : Bool) (rs : List (String × Except Error Decoded)) :
    values raising rs = rs.mapM fun r => (Value.ofResult raising r.2).map fun v => (r.1, v) := by
  induction rs with
  | nil => rfl
  | cons r rs ih =>
    obtain ⟨name, result⟩ := r
    rw [List.mapM_cons, ← ih]
    cases result with
    | ok d =>
      rw [values, Value.ofResult]
      cases Value.ofDecoded d <;> rfl
    | error e => cases raising <;> rfl

theorem exists_member (name : String) (h : Fits result) : ∃ m : String × Value,
    (Value.ofResult false result).map (fun v => (name, v)) = .ok m ∧
      m.1 = name ∧ Shows result m.2 := by
  obtain ⟨value, hvalue, hshows⟩ := Value.exists_ofResult h
  exact ⟨(name, value), map_eq_ok_iff.2 ⟨value, hvalue, rfl⟩, rfl, hshows⟩

/-- Each result has its place among the values. -/
theorem exists_values {rs : List (String × Except Error Decoded)} (h : ∀ r ∈ rs, Fits r.2) :
    ∃ members, values false rs = .ok members ∧
      List.Forall₂ (fun r m => m.1 = r.1 ∧ Shows r.2 m.2) rs members := by
  rw [values_eq_mapM]
  exact exists_mapM_eq_ok fun r hr => exists_member r.1 (h r hr)

/-- The first value that is no column hides all of the others. -/
theorem values_eq_error {before after : List (String × Except Error Decoded)} {name : String}
    (hbefore : ∀ r ∈ before, Fits r.2) (h : d.Oversized t n) :
    values false (before ++ (name, .ok d) :: after) =
      .error (.failed (.sizeMismatch t.name (.rowLength n))) := by
  rw [values_eq_mapM]
  refine mapM_append_eq_error (fun r hr => ?_) ?_
  · obtain ⟨m, hm, -⟩ := exists_member r.1 (hbefore r hr)
    exact ⟨m, hm⟩
  · show (Value.ofDecoded d).map _ = _
    rw [Value.ofDecoded_eq_error h]
    rfl

variable {x y : Extractor} {R : Responder interface} {s : R.State} {samples : Value}
  {read : List Int16} {raw : RawExtraction} {results : Results}

/-- Results belong to the extractor that asked for them, but for what lies in its buffer. -/
theorem exists_withBuffer (h : ((x.calculateRaw read).run R s).value = (.ok raw, y)) :
    ∃ left, raw.extractor = x.withBuffer read left := by
  unfold Extractor.calculateRaw at h
  split at h
  · cases h
  · rw [Dialogue.value_bind] at h
    split at h
    · cases h
    · cases h
      exact ⟨_, rfl⟩

theorem value_calculate (hsamples : samples.toSamples = .ok read)
    (hraw : ((x.calculateRaw read).run R s).value = (.ok raw, y)) :
    ((calculate x samples [("raise_on_error", .bool false)]).run R s).value =
      (raw.decode.mapError .failed >>= fun rs => (values false rs.entries).map .dict, y) := by
  have hread : (do
      Signature.check ⟨[], ["raise_on_error"]⟩ [("raise_on_error", .bool false)]
      let raising ← Arguments.optional [("raise_on_error", .bool false)] "raise_on_error" true
        Value.toBool
      return (← samples.toSamples, raising) : Except Exception (List Int16 × Bool)) =
        .ok (read, false) := by
    rw [hsamples]
    rfl
  simp only [calculate, hread]
  rw [Dialogue.value_bind, hraw]
  dsimp only
  rw [Dialogue.value_bind, Dialogue.value_bind, RawExtraction.decodeLogged, Dialogue.value_bind]
  rfl

/-- A script that wants no exceptions raised gets the last result under each name of the batch, be
it a value or the exception in its place. Only rows that are too long raise one, and then the script
gets no value at all. -/
theorem calculate_unraised (hsamples : samples.toSamples = .ok read)
    (hraw : ((x.calculateRaw read).run R s).value = (.ok raw, y))
    (hdecode : raw.decode = .ok results) :
    let o := (calculate x samples [("raise_on_error", .bool false)]).run R s
    (∃ es, raw.batch.Holds es ∧ (∀ e ∈ es, e.1 ∈ x.names) ∧
      ∀ name, results.get? name = (es.reverse.lookup name).map (x.valueOf name)) ∧
    ((∀ r ∈ results.entries, Fits r.2) → ∃ members, o.value = (.ok (.dict members), y) ∧
      List.Forall₂ (fun r m => m.1 = r.1 ∧ Shows r.2 m.2) results.entries members) ∧
    ∀ before name d after t n, results.entries = before ++ (name, .ok d) :: after →
      (∀ r ∈ before, Fits r.2) → Decoded.Oversized d t n →
      o.value = (.error (.failed (.sizeMismatch t.name (.rowLength n))), y) := by
  intro o
  have hvalue : o.value = ((values false results.entries).map .dict, y) := by
    rw [show o.value = _ from value_calculate hsamples hraw, hdecode]
    rfl
  obtain ⟨left, hextractor⟩ := exists_withBuffer hraw
  refine ⟨?_, ?_, ?_⟩
  · obtain ⟨es, hes, hnames, rfl⟩ := RawExtraction.holds_of_decode hdecode
    rw [hextractor] at hnames ⊢
    refine ⟨es, hes, hnames, fun name => ?_⟩
    rw [Dict.get?_ofList, ← List.map_reverse, Dict.lookup_map]
    rfl
  · intro hfits
    obtain ⟨members, hmembers, hshows⟩ := exists_values hfits
    refine ⟨members, ?_, hshows⟩
    rw [hvalue, hmembers]
    rfl
  · intro before name d after t n hentries hbefore hlong
    rw [hvalue, hentries, values_eq_error hbefore hlong]
    rfl

end Scripting

/-! ## Rows that are too long for a column -/

namespace Panels

def odd : Transform where
  name := "Odd"
  inputFormat := "Raw<short>"
  outputFormat := "quaternion"

def rows : Transform where
  name := "Rows"
  inputFormat := "Raw<short>"
  outputFormat := "FixedArray<(unsigned long)2147483648, float>"

def catalog : Catalog := .ofParts [Levels.level, odd, rows] []

def texts : List String := ["Loud [Level]", "Odd [Odd]", "Top [Rows]"]

def opened : Extractor := { Levels.opened with
  resultCount := 3
  catalog := catalog
  slots := [⟨⟨"Loud", [Levels.level]⟩, "Loud [Level]", some "int"⟩,
    ⟨⟨"Odd", [odd]⟩, "Odd [Odd]", some "quaternion"⟩,
    ⟨⟨"Top", [rows]⟩, "Top [Rows]", some "FixedArray<(unsigned long)2147483648, float>"⟩] }

def opening : Talk (Except Error Extractor) := Extractor.ofTexts catalog texts Levels.settings

/-- An engine with bytes for the first feature and for the rows. -/
def script (top : Bytes) : Accounted.State where
  outputs := .ofList [("Loud", [1, 0, 0, 0]), ("Top", top)]

/-- The engine after the opening. -/
def engineState (top : Bytes) : Accounted.State :=
  (opening.run Accounted.engine (script top)).state

def samples : Scripting.Value := .list [.int 1, .int 2]

/-- The calculation of a script that wants no exceptions raised. -/
def calculation : Talk (Except Scripting.Exception Scripting.Value × Extractor) :=
  Scripting.calculate opened samples [("raise_on_error", .bool false)]

/-- What becomes of the rows where the engine has no bytes for them, and with a single element. -/
def noRows : Decoded := ⟨.array ⟨.float32, [], true⟩, some 2147483648, []⟩

def lone : Decoded :=
  ⟨.array ⟨.float32, [0x3f800000], true⟩, some 2147483648, [.sizeMismatch 1 2147483648]⟩

def results (top : Decoded) : Results := .ofList [
    ("Loud", .ok ⟨.scalar ⟨.int32, 1⟩, none, []⟩), ("Odd", .error (.unknownType "quaternion")),
    ("Top", .ok top)]

theorem toSamples_samples : samples.toSamples = .ok [1, 2] := rfl

theorem value_calculateRaw (top : Bytes) :
    ((opened.calculateRaw [1, 2]).run Accounted.engine (engineState top)).value =
      (.ok ⟨Accounted.batch (engineState top) ["Loud", "Odd", "Top"], opened.withBuffer [1, 2] []⟩,
        opened.withBuffer [1, 2] []) :=
  Extractor.value_calculateRaw rfl rfl rfl

end Panels

namespace Scripting

theorem fits_loud : Fits (.ok ⟨.scalar ⟨.int32, 1⟩, none, []⟩) := by
  rintro d t n hd ⟨a, ha, -⟩
  cases hd
  cases ha

/-- A single element makes no row, so that it becomes a flat column. -/
theorem calculate_unraised_flat :
    (Panels.opening.run Accounted.engine (Panels.script [0, 0, 128, 63])).value =
        .ok Panels.opened ∧
      ∃ members, (Panels.calculation.run Accounted.engine
          (Panels.engineState [0, 0, 128, 63])).value.1 = .ok (.dict members) ∧
        List.Forall₂ (fun r m => m.1 = r.1 ∧ Shows r.2 m.2)
          (Panels.results Panels.lone).entries members := by
  have hopened : (Panels.opening.run Accounted.engine (Panels.script [0, 0, 128, 63])).value =
      .ok Panels.opened := rfl
  have hdecode : RawExtraction.decode ⟨Accounted.batch (Panels.engineState [0, 0, 128, 63])
      ["Loud", "Odd", "Top"], Panels.opened.withBuffer [1, 2] []⟩ =
        .ok (Panels.results Panels.lone) := rfl
  have hfits : ∀ r ∈ (Panels.results Panels.lone).entries, Fits r.2 := by
    refine List.forall_mem_cons.2 ⟨?_, List.forall_mem_cons.2 ⟨?_, List.forall_mem_singleton.2 ?_⟩⟩
    · exact fits_loud
    · exact fun d t n hd => absurd hd nofun
    · rintro d t n hd ⟨a, ha, -, hrow, hdvd, hlong⟩
      cases hd
      cases ha
      have hlength : n ≤ 1 := Nat.le_of_dvd Nat.one_pos hdvd
      omega
  obtain ⟨-, hall, -⟩ := calculate_unraised Panels.toSamples_samples
    (Panels.value_calculateRaw [0, 0, 128, 63]) hdecode
  obtain ⟨members, hmembers, hshows⟩ := hall hfits
  exact ⟨hopened, members, congrArg Prod.fst hmembers, hshows⟩

/-- Without any element there are whole rows, none of them, and the values of all features are
lost. -/
theorem not_calculate_of_oversized :
    (Panels.opening.run Accounted.engine (Panels.script [])).value = .ok Panels.opened ∧
      Panels.opened.valueOf "Loud" [1, 0, 0, 0] = .ok ⟨.scalar ⟨.int32, 1⟩, none, []⟩ ∧
      (Panels.calculation.run Accounted.engine (Panels.engineState [])).value.1 =
        .error (.failed (.sizeMismatch "Float32" (.rowLength 2147483648))) ∧
      (Error.sizeMismatch "Float32" (.rowLength 2147483648)).isDecoding = true := by
  have hdecode : RawExtraction.decode ⟨Accounted.batch (Panels.engineState [])
      ["Loud", "Odd", "Top"], Panels.opened.withBuffer [1, 2] []⟩ =
        .ok (Panels.results Panels.noRows) := rfl
  have hlong : Panels.noRows.Oversized .float32 2147483648 :=
    ⟨_, rfl, rfl, rfl, dvd_zero _, le_rfl⟩
  have hbefore : ∀ r ∈ (Panels.results Panels.noRows).entries.take 2, Fits r.2 := by
    refine List.forall_mem_cons.2 ⟨fits_loud, List.forall_mem_singleton.2 ?_⟩
    exact fun d t n hd => absurd hd nofun
  have hvalues : values false (Panels.results Panels.noRows).entries =
      .error (.failed (.sizeMismatch "Float32" (.rowLength 2147483648))) :=
    values_eq_error hbefore hlong
  have hvalue := value_calculate Panels.toSamples_samples (Panels.value_calculateRaw [])
  rw [hdecode] at hvalue
  refine ⟨rfl, rfl, ?_, rfl⟩
  rw [Panels.calculation, hvalue]
  show (values false (Panels.results Panels.noRows).entries).map Value.dict = _
  rw [hvalues]
  rfl

end Scripting

end AudioFeatures
