import AudioFeatures.Extractor.Extraction
import AudioFeatures.Proofs.Decoded.Recoverable
import AudioFeatures.Proofs.Extractor.Opening

/-! # The results of an extraction

With an engine that is not made to fail every extraction succeeds. It has one result for each
feature, under the name of the feature: the value of the bytes that the engine has for this name.
-/

namespace AudioFeatures

open Engine Engine.Accounted Text

variable {c : Catalog} {config : Config} {options : DecodeOptions} {texts : List String}
  {slots : List Slot} {slot : Slot} {x : Extractor} {samples : List Int16} {s t : State}

namespace Slot

/-- What becomes of the bytes of a feature: they are decoded under the format of its slot. -/
def result (slot : Slot) (options : DecodeOptions) (bytes : Bytes) : Except Error Decoded :=
  match slot.format with
  | some format => (Decoded.ofFormat format ⟨bytes, 0⟩ options).map Decoded.detach
  | none => .error (.formatNotRecognized slot.feature.name)

theorem map_decode (slot : Slot) (options : DecodeOptions) (bytes : Bytes) :
    (slot.decode options bytes).map Decoded.detach = slot.result options bytes := by
  rw [decode, result]
  cases slot.format <;> rfl

theorem recoverable_decode (h : ∀ format ∈ slot.format, IsAscii format.toList) (bytes : Bytes) :
    Recoverable (slot.decode options bytes) := by
  rw [decode]
  split
  case h_1 format hformat => exact Decoded.recoverable_ofFormat (h format hformat) _ _
  case h_2 => exact recoverable_error.2 rfl

end Slot

namespace Extractor

theorem slot?_of_mem (hx : (x.slots.map (·.feature.name)).Nodup) (h : slot ∈ x.slots) :
    x.slot? slot.feature.name = some slot := by
  obtain ⟨found, hfound⟩ : ∃ found, x.slot? slot.feature.name = some found :=
    Option.isSome_iff_exists.1 (List.find?_isSome.2 ⟨slot, h, by simp⟩)
  have hname : found.feature.name = slot.feature.name := by simpa using List.find?_some hfound
  rw [hfound, List.inj_on_of_nodup_map hx (List.mem_of_find?_eq_some hfound) h hname]

/-- The formats of the slots are those of entries of the catalog. -/
theorem isAscii_format {R : Responder interface} {s : R.State}
    (hformats : ∀ e ∈ c.transforms.entries, IsAscii e.2.outputFormat.toList)
    (h : ((ofTexts c texts config).run R s).value = .ok x) (hslot : slot ∈ x.slots) :
    ∀ format ∈ slot.format, IsAscii format.toList := by
  obtain ⟨f, hf, hof⟩ := exists_of_mem_slots h hslot
  obtain ⟨kept, t, hkept, -, -, hformat⟩ := Slot.ofFeature_eq_ok hf hof
  have hmem : t ∈ f.stages := (Feature.included_sublist hkept).subset (by simp)
  obtain ⟨key, entry, hget, hsame⟩ := Catalog.exists_get?_of_mem hf.resolved hmem
  intro format hmem
  rw [hformat] at hmem
  split at hmem
  · cases hmem
  · cases hmem
    rw [hsame]
    exact hformats _ (Dict.get?_eq_some_iff.1 hget)

end Extractor

namespace RawExtraction

/-- A result that finds its slot leaves the others alone, whether its value is decoded or not. -/
theorem decodeEntries_cons {name : String} {bytes : Bytes} {rest : List (String × Bytes)}
    (hslot : x.slot? name = some slot)
    (hdecode : Recoverable (slot.decode x.config.decode bytes)) :
    decodeEntries x ((name, bytes) :: rest) = (decodeEntries x rest).map fun es =>
      (name, slot.decode x.config.decode bytes) :: es := by
  rw [decodeEntries, hslot]
  dsimp only
  cases hvalue : slot.decode x.config.decode bytes with
  | ok d => rfl
  | error e =>
    have hfatal : e.isFatal = false := hdecode e hvalue
    simp [hfatal]

/-- Each result finds its slot. -/
theorem decodeEntries_map (hx : (x.slots.map (·.feature.name)).Nodup)
    (hdecode : ∀ slot ∈ x.slots, ∀ bytes, Recoverable (slot.decode x.config.decode bytes))
    (bytes : String → Bytes) (hslots : slots ⊆ x.slots) :
    decodeEntries x (slots.map fun slot => (slot.feature.name, bytes slot.feature.name)) =
      .ok (slots.map fun slot =>
        (slot.feature.name, slot.decode x.config.decode (bytes slot.feature.name))) := by
  induction slots with
  | nil => rfl
  | cons slot slots ih =>
    obtain ⟨hslot, hslots⟩ := List.cons_subset.1 hslots
    rw [List.map_cons, decodeEntries_cons (Extractor.slot?_of_mem hx hslot) (hdecode slot hslot _),
      ih hslots]
    rfl

end RawExtraction

namespace Extractor

/-- Without faults the engine hands over a batch of the features that it was set up with. -/
theorem value_calculateRaw {features : List String} (hfaults : t.faults = [])
    (hfeatures : t.configurations[x.configuration.id]? = some features)
    (hsamples : samples.length = x.config.bufferSize.toNat) :
    ((x.calculateRaw samples).run engine t).value =
      (.ok ⟨batch t features, x.withBuffer samples []⟩, x.withBuffer samples []) := by
  rw [calculateRaw, if_neg (by simpa using hsamples), Dialogue.value_bind,
    value_extract hfaults hfeatures]
  rfl

theorem value_calculate {features : List String} (hfaults : t.faults = [])
    (hfeatures : t.configurations[x.configuration.id]? = some features)
    (hsamples : samples.length = x.config.bufferSize.toNat) :
    ((x.calculate samples).run engine t).value.1 =
      (RawExtraction.decode ⟨batch t features, x.withBuffer samples []⟩).map fun results =>
        results.map fun result => result.map Decoded.detach := by
  rw [calculate, Dialogue.value_bind, value_calculateRaw hfaults hfeatures hsamples]
  dsimp only
  rw [Dialogue.value_bind, Dialogue.value_bind, RawExtraction.decodeLogged, Dialogue.value_bind]
  rfl

/-- The batch of all slots is decoded slot by slot. -/
theorem decode_batch (hfaults : t.faults = [])
    (houtputs : ∀ e ∈ t.outputs.entries, e.2.length < 2 ^ 31) (hcount : x.slots.length < 2 ^ 31)
    (hx : (x.slots.map (·.feature.name)).Nodup)
    (hdecode : ∀ slot ∈ x.slots, ∀ bytes, Recoverable (slot.decode x.config.decode bytes)) :
    RawExtraction.decode ⟨batch t (x.slots.map (·.feature.name)), x⟩ =
      .ok (.ofList (x.slots.map fun slot => (slot.feature.name,
        slot.decode x.config.decode (t.output slot.feature.name)))) := by
  have hbytes := entries_batch hfaults houtputs
    (show (x.slots.map (·.feature.name)).length < 2 ^ 31 by simpa using hcount)
  have hentries := RawExtraction.decodeEntries_map hx hdecode t.output (List.Subset.refl x.slots)
  rw [List.map_map] at hbytes
  refine bind_eq_ok_iff.2 ⟨_, hbytes, bind_eq_ok_iff.2 ⟨_, hentries, rfl⟩⟩

theorem perm_results (h : (slots.map (·.feature.name)).Nodup) (bytes : String → Bytes) :
    ((Dict.ofList (slots.map fun slot => (slot.feature.name,
      slot.decode options (bytes slot.feature.name)))).map fun result =>
        result.map Decoded.detach).entries.Perm
    (slots.map fun slot => (slot.feature.name,
      slot.result options (bytes slot.feature.name))) := by
  have hnames : ((slots.map fun slot => (slot.feature.name,
      slot.decode options (bytes slot.feature.name))).map (·.1)).Nodup := by
    rwa [List.map_map]
  have hperm := (Dict.perm_ofList hnames).map fun e => (e.1, e.2.map Decoded.detach)
  simpa only [Dict.map, List.map_map, Function.comp_def, Slot.map_decode] using hperm

/-- There is a slot for each text, under the name that it denotes. Whatever the engine was asked in
the meantime, it has a result for each slot and no other. -/
theorem calculate_eq_ok {α : Type} (d : Talk α) (hfaults : s.faults = [])
    (houtputs : ∀ e ∈ s.outputs.entries, e.2.length < 2 ^ 31)
    (hformats : ∀ e ∈ c.transforms.entries, IsAscii e.2.outputFormat.toList)
    (hopen : ((ofTexts c texts config).run engine s).value = .ok x)
    (hsamples : samples.length = config.bufferSize.toNat) :
    let t := (d.run engine ((ofTexts c texts config).run engine s).state).state
    List.Forall₂ (fun text slot => ∃ f, Feature.parse text = .ok f ∧ slot.feature.name = f.name)
        texts x.slots ∧
      ∃ results, ((x.calculate samples).run engine t).value.1 = .ok results ∧
        results.entries.Perm (x.slots.map fun slot => (slot.feature.name,
          slot.result config.decode (s.output slot.feature.name))) := by
  intro t
  obtain ⟨hconfig, hcount, hfeatures⟩ := configuration_of_ofTexts hfaults hopen
  have hlater : Follows ((ofTexts c texts config).run engine s).state t := follows_run d _
  have hfollows : Follows s t := (follows_run _ s).trans hlater
  have hx := nodup_slots hopen
  refine ⟨(forall₂_slots hopen).imp ?_, ?_⟩
  · rintro text slot ⟨f, htext, hslot⟩
    obtain ⟨g, hg, hgf⟩ := bind_eq_ok_iff.1 htext
    obtain ⟨rs, -, rfl⟩ := Catalog.resolveAll_eq_ok hgf
    exact ⟨g, hg, (Slot.name_of_ofFeature hslot).trans rfl⟩
  · have hdecode : ∀ slot ∈ x.slots, ∀ bytes, Recoverable (slot.decode x.config.decode bytes) :=
      fun slot hslot => Slot.recoverable_decode (isAscii_format hformats hopen hslot)
    have hfaults : t.faults = [] := hfollows.faults.trans hfaults
    subst hconfig
    have hbatch : RawExtraction.decode ⟨batch t (x.slots.map (·.feature.name)),
        x.withBuffer samples []⟩ = .ok (.ofList (x.slots.map fun slot => (slot.feature.name,
          slot.decode x.config.decode (s.output slot.feature.name)))) := by
      simp only [← hfollows.output]
      exact decode_batch (x := x.withBuffer samples []) hfaults (hfollows.outputs ▸ houtputs)
        hcount hx hdecode
    rw [value_calculate hfaults (hlater.configuration hfeatures) hsamples, hbatch]
    exact ⟨_, rfl, perm_results hx s.output⟩

end Extractor

/-! ## A result with bytes and one without -/

namespace Levels

def level : Transform where
  name := "Level"
  inputFormat := "Raw<short>"
  outputFormat := "int"

def catalog : Catalog := .ofParts [level] []

def settings : Config := { bufferSize := 2, samplingRate := 16000 }

def features : List String := ["Loud [Level]", "Quiet [Level]"]

def opened : Extractor where
  configuration := ⟨0⟩
  resultCount := 2
  catalog := catalog
  config := settings
  slots := [⟨⟨"Loud", [level]⟩, "Loud [Level]", some "int"⟩,
    ⟨⟨"Quiet", [level]⟩, "Quiet [Level]", some "int"⟩]
  buffer := .silent 2
  size_buffer := rfl

/-- The engine has bytes for the first feature only. -/
def script : State := { outputs := .ofList [("Loud", [1, 0, 0, 0])] }

def opening : Talk (Except Error Extractor) := Extractor.ofTexts catalog features settings

end Levels

/-- The first extraction leaves the second one as it was. -/
theorem Extractor.calculate_eq_ok_levels :
    (Levels.opening.run engine Levels.script).value = .ok Levels.opened ∧ ∃ results,
      ((Levels.opened.calculate [3, 4]).run engine ((Levels.opened.calculate [1, 2]).run engine
        (Levels.opening.run engine Levels.script).state).state).value.1 = .ok results ∧
      results.entries.Perm [("Loud", .ok ⟨.scalar ⟨.int32, 1⟩, none, []⟩),
        ("Quiet", .ok ⟨.array ⟨.int32, [], false⟩, none, []⟩)] := by
  have hopen : (Levels.opening.run engine Levels.script).value = .ok Levels.opened := by cbv
  have houtputs : ∀ e ∈ Levels.script.outputs.entries, e.2.length < 2 ^ 31 := by decide
  have hformats : ∀ e ∈ Levels.catalog.transforms.entries, IsAscii e.2.outputFormat.toList := by
    decide
  have hsamples : ([3, 4] : List Int16).length = Levels.settings.bufferSize.toNat := by decide
  have hresults : (Levels.opened.slots.map fun slot => (slot.feature.name,
      slot.result Levels.settings.decode (Levels.script.output slot.feature.name))) =
      [("Loud", .ok ⟨.scalar ⟨.int32, 1⟩, none, []⟩),
        ("Quiet", .ok ⟨.array ⟨.int32, [], false⟩, none, []⟩)] := by cbv
  rw [← hresults]
  rw [Levels.opening] at hopen ⊢
  exact ⟨hopen, (calculate_eq_ok _ rfl houtputs hformats hopen hsamples).2⟩

end AudioFeatures
