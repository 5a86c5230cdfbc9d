import AudioFeatures.Proofs.Extractor.Keys

/-! # The buffer of an extractor

An extractor hands all samples over in one buffer, in which the engine may leave what it likes. The
samples of a call take the place of whatever lies there, and samples that do not fill the buffer
never get that far.
-/

namespace AudioFeatures

open Engine Engine.Accounted

variable {α β : Type}

namespace Engine

/-- The extraction that a step asks for: the configuration, the samples and the feature count. -/
def extraction? : Event interface → Option (Configuration × List Int16 × Int32)
  | .call (.extract c samples featureCount) _ => some (c, samples, featureCount)
  | _ => none

/-- Whatever the engine replies, the dialogue asks for these extractions in order. -/
def Extracts (d : Talk α) (es : List (Configuration × List Int16 × Int32)) : Prop :=
  ∀ (R : Responder interface) (s : R.State), (d.run R s).events.filterMap extraction? = es

namespace Extracts

variable {d : Talk α} {k : α → Talk β} {es es' : List (Configuration × List Int16 × Int32)}

theorem pure (a : α) : Extracts (Pure.pure a) [] := fun _ _ => rfl

theorem ask {q : Request} (h : ∀ r, extraction? (.call q r) = none) :
    Extracts (Engine.ask q) [] := by
  intro R s
  rw [Engine.ask, Dialogue.events_request, List.filterMap_cons_none (h _)]
  rfl

theorem extract (c : Configuration) (samples : List Int16) (featureCount : Int32) :
    Extracts (Engine.ask (.extract c samples featureCount)) [(c, samples, featureCount)] :=
  fun _ _ => rfl

/-- What is asked later may depend on values that the dialogue can have. -/
theorem bind (h : Extracts d es)
    (hk : ∀ (R : Responder interface) (s : R.State), Extracts (k (d.run R s).value) es') :
    Extracts (d >>= k) (es ++ es') := by
  intro R s
  rw [Dialogue.events_bind, List.filterMap_append, h R s, hk R s R _]

theorem bind_nil (h : Extracts d []) (hk : ∀ a, Extracts (k a) es) : Extracts (d >>= k) es :=
  h.bind fun _ _ => hk _

theorem write (line : LogLine) : Extracts (Dialogue.write line) [] := fun _ _ => rfl

theorem writeAll (lines : List LogLine) : Extracts (Dialogue.writeAll lines) [] := by
  induction lines with
  | nil => exact pure ()
  | cons line lines ih => exact (write line).bind_nil fun _ => ih

end Extracts

end Engine

/-- Samples replace as many of those in the buffer as there are. -/
theorem SampleBuffer.toList_overwrite_eq (b : SampleBuffer) (samples : List Int16) :
    (b.overwrite samples).toList = samples.take b.size ++ b.toList.drop samples.length := by
  cases samples with
  | nil => simp [overwrite]
  | cons => rfl

namespace Extractor

/-- A call of an extractor with samples. -/
inductive Call where
  | calculate (samples : List Int16)
  | calculateRaw (samples : List Int16)

/-- What a call yields; raw results are as the engine handed them over. -/
inductive Output where
  | results (rs : Results)
  | raw (batch : Batch)

def Call.samples : Call → List Int16
  | calculate samples | calculateRaw samples => samples

/-- Raw results belong to the extractor: they are given back before its next call. -/
def perform (x : Extractor) : Call → Talk (Except Error Output × Extractor)
  | .calculate samples => do
    let (results, x) ← x.calculate samples
    return (results.map .results, x)
  | .calculateRaw samples => do
    match ← x.calculateRaw samples with
    | (.error e, x) => return (.error e, x)
    | (.ok raw, x) =>
      raw.release
      return (.ok (.raw raw.batch), x)

def performAll (x : Extractor) : List Call → Talk (List (Except Error Output) × Extractor)
  | [] => return ([], x)
  | call :: calls => do
    let (output, x) ← x.perform call
    let (outputs, x) ← x.performAll calls
    return (output :: outputs, x)

/-- An extractor later on: nothing but its buffer may be different. -/
structure Continues (x y : Extractor) : Prop where
  configuration : y.configuration = x.configuration
  resultCount : y.resultCount = x.resultCount
  catalog : y.catalog = x.catalog
  config : y.config = x.config
  slots : y.slots = x.slots

variable {x y z : Extractor} {call : Call} {calls : List Call} {R : Responder interface}
  {s : R.State}

namespace Continues

theorem refl (x : Extractor) : x.Continues x := ⟨rfl, rfl, rfl, rfl, rfl⟩

theorem trans (h : x.Continues y) (h' : y.Continues z) : x.Continues z where
  configuration := h'.configuration.trans h.configuration
  resultCount := h'.resultCount.trans h.resultCount
  catalog := h'.catalog.trans h.catalog
  config := h'.config.trans h.config
  slots := h'.slots.trans h.slots

theorem withBuffer (x : Extractor) (samples left : List Int16) :
    x.Continues (x.withBuffer samples left) := ⟨rfl, rfl, rfl, rfl, rfl⟩

theorem length_buffer (h : x.Continues y) :
    y.buffer.toList.length = x.config.bufferSize.toNat := by
  rw [SampleBuffer.length_toList, y.size_buffer, h.config]

end Continues

/-- What follows an extraction in a call. Results are given back in any case. -/
def conclude (x : Extractor) (call : Call) (r : Extraction) : Talk (Except Error Output) :=
  if r.status != 0 then do
    Dialogue.write (.error ("extract_sound_features() returned " ++ toString r.status.toInt))
    ask (.releaseBatch r.batch)
    return .error (.extractionFailed r.status)
  else
    match call with
    | .calculate _ => do
      let results ← RawExtraction.decodeLogged ⟨r.batch, x⟩
      ask (.releaseBatch r.batch)
      return results.map fun rs => .results (rs.map fun result => result.map Decoded.detach)
    | .calculateRaw _ => do
      ask (.releaseBatch r.batch)
      return .ok (.raw r.batch)

theorem extracts_conclude (x : Extractor) (call : Call) (r : Extraction) :
    Extracts (x.conclude call r) [] := by
  have hrelease {α : Type} (a : α) :
      Extracts (do ask (.releaseBatch r.batch); return a) [] :=
    (Extracts.ask fun _ => rfl).bind_nil fun _ => .pure a
  unfold conclude
  split
  · exact (Extracts.write _).bind_nil fun _ => hrelease _
  · split
    · refine ((Extracts.writeAll _).bind_nil fun _ => .pure _).bind_nil fun results => ?_
      exact hrelease _
    · exact hrelease _

/-- Samples of another number are refused at once. -/
theorem perform_of_length_ne (h : call.samples.length ≠ x.config.bufferSize.toNat) :
    x.perform call = pure (.error (.bufferSizeMismatch x.config.bufferSize.toNat
      call.samples.length), x) := by
  have hne : (call.samples.length != x.config.bufferSize.toNat) = true := by simpa using h
  cases call with
  | calculate samples =>
    rw [Call.samples] at hne
    rw [perform, calculate, calculateRaw, if_pos hne]
    rfl
  | calculateRaw samples =>
    rw [Call.samples] at hne
    rw [perform, calculateRaw, if_pos hne]
    rfl

/-- As many samples as the buffer holds reach the engine as they are. -/
theorem perform_of_length_eq (h : call.samples.length = x.config.bufferSize.toNat) :
    x.perform call = do
      let r ← ask (.extract x.configuration call.samples x.resultCount)
      let y := x.withBuffer call.samples r.samples
      return (← y.conclude call r, y) := by
  have hne : ¬(call.samples.length != x.config.bufferSize.toNat) = true := by simpa using h
  have hinput : (x.buffer.overwrite call.samples).toList = call.samples :=
    SampleBuffer.toList_overwrite (h.trans x.size_buffer.symm)
  cases call with
  | calculate samples =>
    rw [Call.samples] at hne hinput ⊢
    rw [perform, calculate, calculateRaw, if_neg hne, hinput]
    simp only [bind_assoc]
    refine congrArg _ (funext fun r => ?_)
    rw [conclude]
    split
    · rfl
    · simp only [bind_assoc, pure_bind]
      refine congrArg _ (funext fun results => ?_)
      cases results <;> rfl
  | calculateRaw samples =>
    rw [Call.samples] at hne hinput ⊢
    rw [perform, calculateRaw, if_neg hne, hinput]
    simp only [bind_assoc]
    refine congrArg _ (funext fun r => ?_)
    rw [conclude]
    split <;> rfl

/-- The extraction of a call, if it has as many samples as the buffer holds. -/
def extractionOf? (x : Extractor) (call : Call) : Option (Configuration × List Int16 × Int32) :=
  if call.samples.length = x.config.bufferSize.toNat then
    some (x.configuration, call.samples, x.resultCount)
  else none

theorem extracts_perform (x : Extractor) (call : Call) :
    Extracts (x.perform call) (x.extractionOf? call).toList := by
  by_cases h : call.samples.length = x.config.bufferSize.toNat
  · rw [perform_of_length_eq h, extractionOf?, if_pos h]
    refine (Extracts.extract _ _ _).bind fun R s => ?_
    exact (extracts_conclude _ _ _).bind_nil fun _ => .pure _
  · rw [perform_of_length_ne h, extractionOf?, if_neg h]
    exact .pure _

theorem continues_perform (x : Extractor) (call : Call) (R : Responder interface) (s : R.State) :
    x.Continues ((x.perform call).run R s).value.2 := by
  by_cases h : call.samples.length = x.config.bufferSize.toNat
  · rw [perform_of_length_eq h, Dialogue.value_bind, Dialogue.value_bind]
    exact .withBuffer _ _ _
  · rw [perform_of_length_ne h]
    exact .refl x

theorem continues_performAll (x : Extractor) (calls : List Call) (R : Responder interface)
    (s : R.State) : x.Continues ((x.performAll calls).run R s).value.2 := by
  induction calls generalizing x s with
  | nil => exact .refl x
  | cons call calls ih =>
    rw [performAll, Dialogue.value_bind, Dialogue.value_bind]
    exact (continues_perform x call R s).trans (ih _ _)

theorem Continues.extractionOf? (h : x.Continues y) : y.extractionOf? = x.extractionOf? := by
  funext call
  simp only [Extractor.extractionOf?, h.configuration, h.resultCount, h.config]

/-- The buffer has no part in what the engine is handed. -/
theorem extracts_performAll (x : Extractor) (calls : List Call) :
    Extracts (x.performAll calls) (calls.filterMap x.extractionOf?) := by
  induction calls generalizing x with
  | nil => exact .pure _
  | cons call calls ih =>
    have hsplit : (call :: calls).filterMap x.extractionOf? =
        (x.extractionOf? call).toList ++ calls.filterMap x.extractionOf? := by
      rw [List.filterMap_cons]
      cases x.extractionOf? call <;> rfl
    rw [performAll, hsplit]
    refine (extracts_perform x call).bind fun R s => ?_
    have hlater := ih ((x.perform call).run R s).value.2
    rw [(continues_perform x call R s).extractionOf?] at hlater
    rw [← List.append_nil (calls.filterMap x.extractionOf?)]
    exact hlater.bind fun _ _ => .pure _

/-! ## Samples in a plain list -/

/-- Copies samples over a buffer, which has to be as long. -/
def copy? (buffer samples : List Int16) : Option (List Int16) :=
  if samples.length = buffer.length then some samples else none

/-- The call with a list for a buffer. There is no outcome if the samples cannot be copied. -/
def performOn? (x : Extractor) (buffer : List Int16) (call : Call) :
    Talk (Option (Except Error Output × List Int16)) :=
  if call.samples.length = x.config.bufferSize.toNat then
    match copy? buffer call.samples with
    | none => return none
    | some buffer => do
      let r ← ask (.extract x.configuration buffer x.resultCount)
      let output ← x.conclude call r
      return some (output, r.samples.take buffer.length ++ buffer.drop r.samples.length)
  else
    return some (.error (.bufferSizeMismatch x.config.bufferSize.toNat call.samples.length), buffer)

def performAllOn? (x : Extractor) (buffer : List Int16) :
    List Call → Talk (Option (List (Except Error Output) × List Int16))
  | [] => return some ([], buffer)
  | call :: calls => do
    match ← x.performOn? buffer call with
    | none => return none
    | some (output, buffer) =>
      match ← x.performAllOn? buffer calls with
      | none => return none
      | some (outputs, buffer) => return some (output :: outputs, buffer)

theorem Continues.slot? (h : x.Continues y) : y.slot? = x.slot? := by
  funext name
  rw [Extractor.slot?, Extractor.slot?, h.slots]

theorem Continues.decodeEntries (h : x.Continues y) (es : List (String × Bytes)) :
    RawExtraction.decodeEntries y es = RawExtraction.decodeEntries x es := by
  induction es with
  | nil => rfl
  | cons e es ih => simp only [RawExtraction.decodeEntries, h.slot?, h.config, ih]

theorem Continues.decodeEntriesLog (h : x.Continues y) (es : List (String × Bytes)) :
    RawExtraction.decodeEntriesLog y es = RawExtraction.decodeEntriesLog x es := by
  induction es with
  | nil => rfl
  | cons e es ih => simp only [RawExtraction.decodeEntriesLog, h.slot?, h.config, ih]

theorem Continues.decodeLogged (h : x.Continues y) (b : Batch) :
    RawExtraction.decodeLogged ⟨b, y⟩ = RawExtraction.decodeLogged ⟨b, x⟩ := by
  simp only [RawExtraction.decodeLogged, RawExtraction.decodeLog, RawExtraction.decode,
    RawExtraction.bytes, h.decodeEntries, h.decodeEntriesLog]

theorem Continues.conclude (h : x.Continues y) : y.conclude = x.conclude := by
  funext call r
  simp only [Extractor.conclude, h.decodeLogged]

/-- What lies in the buffer after an extraction. -/
theorem toList_withBuffer {samples : List Int16} (left : List Int16)
    (h : samples.length = y.config.bufferSize.toNat) :
    (y.withBuffer samples left).buffer.toList =
      left.take samples.length ++ samples.drop left.length := by
  have hsize : samples.length = y.buffer.size := h.trans y.size_buffer.symm
  rw [withBuffer, SampleBuffer.toList_overwrite_eq, SampleBuffer.size_overwrite,
    SampleBuffer.toList_overwrite hsize, hsize]

/-- A plain list for the buffer makes no difference to a call: the samples can be copied into it. -/
theorem Continues.performOn?_eq (h : x.Continues y) (call : Call) :
    x.performOn? y.buffer.toList call = do
      let (output, z) ← y.perform call
      return some (output, z.buffer.toList) := by
  rw [performOn?, ← h.config]
  split
  case isTrue hlength =>
    have hcopy : copy? y.buffer.toList call.samples = some call.samples := by
      rw [copy?, if_pos (by rw [hlength, SampleBuffer.length_toList, y.size_buffer])]
    rw [perform_of_length_eq hlength, hcopy, h.configuration, h.resultCount]
    simp only [bind_assoc, pure_bind, toList_withBuffer _ hlength]
    refine congrArg _ (funext fun r => ?_)
    rw [(Continues.withBuffer y call.samples r.samples).conclude, h.conclude]
  case isFalse hlength =>
    rw [perform_of_length_ne hlength]
    rfl

theorem Continues.run_performAllOn? (h : x.Continues y) (calls : List Call)
    (R : Responder interface) (s : R.State) :
    (x.performAllOn? y.buffer.toList calls).run R s =
      let o := (y.performAll calls).run R s
      ⟨some (o.value.1, o.value.2.buffer.toList), o.state, o.events⟩ := by
  -- the list stays beside `x` while the calls go on with later extractors
  induction calls generalizing y s with
  | nil => rfl
  | cons call calls ih =>
    have hlater := ih (h.trans (continues_perform y call R s)) ((y.perform call).run R s).state
    rw [performAllOn?, h.performOn?_eq, performAll]
    simp only [bind_assoc, pure_bind, Dialogue.run_then, hlater]
    rfl

/-- Whatever the calls and the engine did before, a call with as many samples as the buffer holds
hands over exactly these, along with the number of features. Any other call is refused before the
engine is asked, and nothing changes. At all times the buffer holds as many samples as at the
beginning, so that samples can be copied into it. -/
theorem extractions_performAll {c : Catalog} {features : List Feature} {config : Config}
    {R₀ : Responder interface} {s₀ : R₀.State}
    (h : ((new c features config).run R₀ s₀).value = .ok x) (R : Responder interface)
    (s : R.State) (calls : List Call) (call : Call) :
    let o := (x.performAll calls).run R s
    let y := o.value.2
    let p := (y.perform call).run R o.state
    x.config = config ∧ x.resultCount.toInt = features.length ∧ x.Continues y ∧
      o.events.filterMap extraction? = calls.filterMap x.extractionOf? ∧
      (call.samples.length = config.bufferSize.toNat →
        p.events.filterMap extraction? = [(x.configuration, call.samples, x.resultCount)]) ∧
      (call.samples.length ≠ config.bufferSize.toNat →
        p = ⟨(.error (.bufferSizeMismatch config.bufferSize.toNat call.samples.length), y),
          o.state, []⟩) ∧
      y.buffer.toList.length = config.bufferSize.toNat ∧
      (x.performAllOn? (List.replicate config.bufferSize.toNat 0) calls).run R s =
        ⟨some (o.value.1, y.buffer.toList), o.state, o.events⟩ := by
  intro o y p
  have hsetup := isSetUp_of_new h
  have hslots : features.length = x.slots.length := (prepare_eq_ok hsetup.slots).2.length_eq
  have hcount : x.resultCount.toInt = features.length := by
    rw [hsetup.resultCount, Int32.toInt_ofNat_of_lt hsetup.length_lt, hslots]
  have hbuffer : x.buffer.toList = List.replicate config.bufferSize.toNat 0 := by
    obtain ⟨slots, r, configuration, -, -, rfl⟩ := exists_of_new h
    rfl
  have hy : x.Continues y := continues_performAll x calls R s
  have hconfig : y.config = config := hy.config.trans hsetup.config
  refine ⟨hsetup.config, hcount, hy, extracts_performAll x calls R s, ?_, ?_, ?_, ?_⟩
  · intro hlength
    have hcall : y.extractionOf? call = some (x.configuration, call.samples, x.resultCount) := by
      rw [hy.extractionOf?, Extractor.extractionOf?, hsetup.config, if_pos hlength]
    have hevents := extracts_perform y call R o.state
    rwa [hcall] at hevents
  · intro hlength
    show (y.perform call).run R o.state = _
    rw [perform_of_length_ne (by rwa [hconfig]), hconfig]
    rfl
  · rw [hy.length_buffer, hsetup.config]
  · rw [← hbuffer]
    exact (Continues.refl x).run_performAllOn? calls R s

end Extractor

/-! ## An engine that writes into the buffer -/

namespace Levels

/-- The engine leaves more samples behind than the buffer holds. -/
def scribbling : Responder interface where
  State := State
  reply
    | .extract c samples featureCount, s =>
      let (r, s) := reply (.extract c samples featureCount) s
      ({ r with samples := [9, 9, 9] }, s)
    | q, s => reply q s

/-- One of the calls has a sample too few. -/
def calls : List Extractor.Call := [.calculate [1, 2], .calculateRaw [3], .calculateRaw [4, 5]]

end Levels

theorem Extractor.extractions_performAll_scribbling :
    let x := Levels.openedPaired "Loud" "Quiet"
    let o := (x.performAll Levels.calls).run Levels.scribbling {}
    let y := o.value.2
    let p := (y.perform (.calculate [6, 7])).run Levels.scribbling o.state
    ((Levels.openingPaired "Loud" "Quiet").run engine {}).value = .ok x ∧
      y.buffer.toList = [9, 9] ∧
      o.events.filterMap extraction? = [(⟨0⟩, [1, 2], 2), (⟨0⟩, [4, 5], 2)] ∧
      p.events.filterMap extraction? = [(⟨0⟩, [6, 7], 2)] ∧
      (y.perform (.calculate [8])).run Levels.scribbling o.state =
        ⟨(.error (.bufferSizeMismatch 2 1), y), o.state, []⟩ := by
  intro x o y p
  have hopened : ((Levels.openingPaired "Loud" "Quiet").run engine {}).value = .ok x := by cbv
  have hbuffer : y.buffer.toList = [9, 9] := by cbv
  have hrun := extractions_performAll hopened Levels.scribbling {} Levels.calls
  obtain ⟨-, -, -, hextractions, hfits, -⟩ := hrun (.calculate [6, 7])
  obtain ⟨-, -, -, -, -, hrefused, -⟩ := hrun (.calculate [8])
  exact ⟨hopened, hbuffer, hextractions, hfits rfl, hrefused (by decide)⟩

end AudioFeatures
