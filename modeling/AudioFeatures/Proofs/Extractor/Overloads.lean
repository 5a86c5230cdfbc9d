import AudioFeatures.Engine.Accounted
import AudioFeatures.Proofs.Extractor.Slots

/-! # Overloads behind dropped stages

The format that results are decoded with was found with all stages of a feature, the engine looks up
the stages of the pipeline anew. Both find the same format exactly if the stages that take part end
with it when they are looked up behind each other.
-/

namespace AudioFeatures

open Engine

variable {c : Catalog} {config : Config} {locals : Condition.Locals} {slot : Slot}
  {kept : List Transform} {t : Transform}

namespace Slot

/-- The pipeline, read and looked up, ends with the format that results are decoded with; it has no
known format where they are decoded with none. -/
def Agrees (s : Slot) (c : Catalog) : Prop :=
  match s.format with
  | some format =>
    ∃ f, Feature.parse s.pipeline >>= c.resolveAll = .ok f ∧ f.outputFormat? = some format
  | none => Feature.parse s.pipeline >>= c.resolveAll =
    .error (.formatNotRecognized s.feature.name)

end Slot

/-- For a pipeline that can be read, by the format that its stages end with. -/
theorem Slot.agrees_iff_endFormat? {p : Feature} {format : String}
    (hp : Feature.parse slot.pipeline = .ok p) (hne : p.stages ≠ [])
    (hname : p.name = slot.feature.name)
    (hformat : slot.format = if format = "" then none else some format) :
    slot.Agrees c ↔ c.endFormat? none (p.stages.map (·.name)) = some format := by
  have hbind : Feature.parse slot.pipeline >>= c.resolveAll = c.resolveAll p := by rw [hp]; rfl
  rw [Agrees, hbind, ← hname, hformat]
  by_cases hempty : format = ""
  · rw [if_pos hempty, hempty]
    rcases c.resolveAll_cases hne with ⟨hend, name, hr⟩ | ⟨hend, hr⟩ | ⟨g, found, hend, hne, hr, -⟩
    · simp [hend, hr]
    · simp [hend, hr]
    · simp [hend, hr, hne]
  · rw [if_neg hempty]
    rcases c.resolveAll_cases hne with ⟨hend, name, hr⟩ | ⟨hend, hr⟩ | ⟨g, found, hend, -, hr, hg⟩
    · simp [hend, hr]
    · simp [hend, hr, Ne.symm hempty]
    · simp [hend, hr, hg]

/-- The stages, looked up behind each other, end with the format that the last of them has. -/
def EndsAlike (c : Catalog) (kept : List Transform) : Prop :=
  c.endFormat? none (kept.map (·.name)) = kept.getLast?.map (·.outputFormat)

instance (c : Catalog) (kept : List Transform) : Decidable (EndsAlike c kept) :=
  inferInstanceAs (Decidable (_ = _))

theorem Slot.agrees_iff_endsAlike {f : Feature} (hf : f.LookedUp c)
    (hslot : Slot.ofFeature f locals c = .ok slot)
    (hkept : Feature.included locals slot.feature.stages = .ok kept) :
    slot.Agrees c ↔ EndsAlike c kept := by
  obtain ⟨init, t, hinit, hfeature, hpipeline, hformat⟩ := Slot.ofFeature_eq_ok hf hslot
  rw [hfeature] at hkept
  obtain rfl : init ++ [t] = kept := Except.ok.inj (hinit.symm.trans hkept)
  have hwell : ∀ u ∈ init ++ [t], u.WellNamed :=
    fun u hu => hf.wellNamed u ((Feature.included_sublist hinit).subset hu)
  have hparse := Feature.parse_pipeline hf.name (by simp) hwell
  rw [← hpipeline] at hparse
  rw [Slot.agrees_iff_endFormat? hparse (by simp) (by rw [hfeature]) hformat, EndsAlike,
    List.getLast?_concat, Option.map_some, List.map_map]
  rfl

/-- It does no harm to drop the last stages. -/
theorem endsAlike_of_isPrefix {f : Feature} (hf : f.LookedUp c) (h : kept <+: f.stages) :
    EndsAlike c kept := by
  have hkept := Catalog.resolveStages_of_isPrefix hf.resolved h
  rw [EndsAlike, Catalog.endFormat?_resolveStages hkept, Option.or_none]

/-- It does no harm to drop stages if those that take part have no overloads. -/
theorem endsAlike_of_plain {f : Feature} (hf : f.LookedUp c) (h : kept.Sublist f.stages)
    (hplain : ∀ t ∈ kept, (c.get? t.name).isSome) : EndsAlike c kept := by
  rw [EndsAlike, Catalog.endFormat?_of_get?, Option.or_none]
  intro t ht
  obtain ⟨entry, he⟩ := Option.isSome_iff_exists.1 (hplain t ht)
  exact ⟨entry, he, Catalog.outputFormat_of_get? hf.resolved (h.subset ht) he⟩

namespace Extractor

/-- The pipeline and the decoding of a slot agree exactly if the stages that take part end alike. -/
theorem agrees_iff {texts : List String} {R : Responder interface} {s : R.State} {x : Extractor}
    (h : ((ofTexts c texts config).run R s).value = .ok x) (hslot : slot ∈ x.slots) :
    slot.Agrees c ↔ ∃ kept, Feature.included config.locals slot.feature.stages = .ok kept ∧
      EndsAlike c kept := by
  obtain ⟨f, hf, hof⟩ := exists_of_mem_slots h hslot
  obtain ⟨init, t, hinit, hfeature, -, -⟩ := Slot.ofFeature_eq_ok hf hof
  have hkept : Feature.included config.locals slot.feature.stages = .ok (init ++ [t]) := by
    rwa [hfeature]
  rw [Slot.agrees_iff_endsAlike hf hof hkept]
  constructor
  · exact fun he => ⟨_, hkept, he⟩
  · rintro ⟨kept, hkept', he⟩
    cases hkept.symm.trans hkept'
    exact he

end Extractor

/-! ## A stage that one channel drops -/

namespace Peaks

/-- The overloads of `Peak` have different formats. -/
def catalog : Catalog := .ofParts [
    { name := "Window", inputFormat := "Raw<short>", outputFormat := "Window<float>" },
    { name := "Peak (Window<float>)", inputFormat := "Window<float>", outputFormat := "float" },
    { name := "Peak (Raw<short>)", inputFormat := "Raw<short>", outputFormat := "int" }] []

def settings (channels : UInt32) : Config := { bufferSize := 4, samplingRate := 16000, channels }

def window : Transform where
  name := "Window"
  inputFormat := "Raw<short>"
  outputFormat := "Window<float>"
  condition := some "channels == 2"

def peak : Transform where
  name := "Peak"
  inputFormat := "Window<float>"
  outputFormat := "float"

def top (pipeline : String) : Slot := ⟨⟨"Top", [window, peak]⟩, pipeline, some "float"⟩

def opened (channels : UInt32) (pipeline : String) : Extractor where
  configuration := ⟨0⟩
  resultCount := 1
  catalog := catalog
  config := settings channels
  slots := [top pipeline]
  buffer := .silent 4
  size_buffer := rfl

def opening (channels : UInt32) : Talk (Except Error Extractor) :=
  Extractor.ofTexts catalog ["Top [Window\x7bchannels == 2\x7d, Peak]"] (settings channels)

end Peaks

/-- Without the window the engine finds the overload for raw samples, while results are still
decoded as those of the other. -/
theorem Extractor.not_agrees_of_dropped :
    ((Peaks.opening 1).run Accounted.engine {}).value = .ok (Peaks.opened 1 "Top [Peak]") ∧
      Peaks.top "Top [Peak]" ∈ (Peaks.opened 1 "Top [Peak]").slots ∧
      ¬(Peaks.top "Top [Peak]").Agrees Peaks.catalog := by
  refine ⟨by cbv, List.mem_cons_self, ?_⟩
  rintro ⟨f, hf, hformat⟩
  have hresolved : Feature.parse (Peaks.top "Top [Peak]").pipeline >>= Peaks.catalog.resolveAll =
      .ok ⟨"Top", [{ name := "Peak", inputFormat := "Raw<short>", outputFormat := "int" }]⟩ := by
    cbv
  cases hf.symm.trans hresolved
  exact absurd hformat (by decide)

theorem Extractor.agrees_iff_kept :
    ((Peaks.opening 2).run Accounted.engine {}).value = .ok (Peaks.opened 2 "Top [Window, Peak]") ∧
      Peaks.top "Top [Window, Peak]" ∈ (Peaks.opened 2 "Top [Window, Peak]").slots ∧
      (Peaks.top "Top [Window, Peak]").Agrees Peaks.catalog := by
  have h : ((Peaks.opening 2).run Accounted.engine {}).value =
      .ok (Peaks.opened 2 "Top [Window, Peak]") := by cbv
  have hslot : Peaks.top "Top [Window, Peak]" ∈ (Peaks.opened 2 "Top [Window, Peak]").slots :=
    List.mem_cons_self
  refine ⟨h, hslot, (Extractor.agrees_iff h hslot).2 ⟨[Peaks.window, Peaks.peak], by cbv, ?_⟩⟩
  decide

end AudioFeatures
