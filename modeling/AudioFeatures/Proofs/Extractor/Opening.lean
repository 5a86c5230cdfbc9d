import AudioFeatures.Proofs.Engine.Accounted
import AudioFeatures.Proofs.Extractor.Slots

/-! # Opening an extractor

An extractor that was opened with texts has a slot for each of them, in order and under different
names. An engine that is not made to fail was set up with the features of these slots: it reads
their names from the pipelines.
-/

namespace AudioFeatures

open Engine Engine.Accounted Text

variable {c : Catalog} {config : Config} {texts : List String} {slots : List Slot} {f : Feature}
  {slot : Slot} {x : Extractor}

namespace Engine.Scripted

/-- The engine reads the name of a feature from the text of its pipeline, as far as the first
bracket in it. -/
theorem featureName_join (name : String) (stages : List String) :
    featureName (Feature.join name stages) = featureName name := by
  have htext : (Feature.join name stages).toList =
      name.toList ++ ' ' :: '[' :: ((", ".intercalate stages).toList ++ [']']) := by
    simp [Feature.join]
  rw [featureName, featureName, htext]
  by_cases hname : '[' ∈ name.toList
  · obtain ⟨before, after, hsplit, hbefore⟩ := List.eq_append_cons_of_mem hname
    rw [hsplit, List.append_assoc, List.cons_append, takeWhile_ne_append hbefore,
      takeWhile_ne_append hbefore]
  · have hblank : '[' ∉ name.toList ++ [' '] := by simpa using hname
    rw [List.append_cons, takeWhile_ne_append hblank, takeWhile_ne_of_not_mem hname,
      trim_append_of_allBlank_right (by decide)]

theorem featureName_of_isName {name : String} (h : IsName name.toList) :
    featureName name = name := by
  have hbracket : '[' ∉ name.toList := fun hm => by simpa [isWord] using h.2 _ hm
  have htrim : trim name.toList = name.toList := h.isTrimmed
  rw [featureName, takeWhile_ne_of_not_mem hbracket, htrim, String.ofList_toList]

end Engine.Scripted

namespace Extractor

theorem repeated?_eq_none_iff {seen names : List String} :
    repeated? seen names = none ↔ names.Nodup ∧ ∀ name ∈ names, name ∉ seen := by
  induction names generalizing seen with
  | nil => simp [repeated?]
  | cons name names ih =>
    rw [repeated?]
    by_cases hseen : name ∈ seen
    · simp [hseen]
    · rw [if_neg (by simpa using hseen), ih, List.nodup_cons, List.forall_mem_cons]
      simp only [List.mem_cons, not_or]
      constructor
      · rintro ⟨hnodup, h⟩
        exact ⟨⟨fun hm => (h name hm).1 rfl, hnodup⟩, hseen, fun other hm => (h other hm).2⟩
      · rintro ⟨⟨hname, hnodup⟩, -, h⟩
        exact ⟨hnodup, fun other hm => ⟨fun he => hname (he ▸ hm), h other hm⟩⟩

theorem nodup_slots {R : Responder interface} {s : R.State}
    (h : ((ofTexts c texts config).run R s).value = .ok x) :
    (x.slots.map (·.feature.name)).Nodup := by
  obtain ⟨features, -, hnone, hslots⟩ := exists_features_of_ofTexts h
  have hnames : features.map (·.name) = x.slots.map (·.feature.name) :=
    map_eq_map_of_forall₂ (hslots.imp fun _ _ h => (Slot.name_of_ofFeature h).symm)
  exact hnames ▸ (repeated?_eq_none_iff.1 hnone).1

variable {s : State}

/-- An engine that is not made to fail keeps the features of a setup under the configuration that it
hands over. -/
theorem configuration_of_new {features : List Feature} (hfaults : s.faults = [])
    (h : ((new c features config).run engine s).value = .ok x) :
    x.config = config ∧ x.slots.length < 2 ^ 31 ∧
      ((new c features config).run engine s).state.configurations[x.configuration.id]? =
        some (Scripted.distinct (x.slots.map fun slot => Scripted.featureName slot.pipeline)) := by
  unfold new at h ⊢
  split at h
  · cases h
  case h_2 slots hslots =>
    rw [Dialogue.value_bind] at h
    rw [Dialogue.state_bind]
    have hfaults := (follows_run config.tunables.apply s).faults.trans hfaults
    generalize (config.tunables.apply.run engine s).state = t at h hfaults ⊢
    split at h
    · cases h
    case h_2 pipelines samplingRate resultCount hsetup =>
      obtain ⟨rfl, -, -, hcount⟩ := setupArguments_eq_ok hsetup
      obtain ⟨hvalue, hstate⟩ :=
        run_setup hfaults (slots.map (·.pipeline)) config.bufferSize samplingRate
      have hfeatures := List.getElem?_concat_length (l := t.configurations)
        (a := Scripted.distinct ((slots.map (·.pipeline)).map Scripted.featureName))
      rw [← hstate, List.map_map] at hfeatures
      rw [Dialogue.value_bind, hvalue] at h
      rw [Dialogue.state_bind, hvalue]
      cases h
      exact ⟨rfl, hcount, hfeatures⟩

/-- The engine was set up with the features of the slots. -/
theorem configuration_of_ofTexts (hfaults : s.faults = [])
    (h : ((ofTexts c texts config).run engine s).value = .ok x) :
    x.config = config ∧ x.slots.length < 2 ^ 31 ∧
      ((ofTexts c texts config).run engine s).state.configurations[x.configuration.id]? =
        some (x.slots.map (·.feature.name)) := by
  have hnames : x.slots.map (fun slot => Scripted.featureName slot.pipeline) =
      x.slots.map (·.feature.name) := by
    refine List.map_congr_left fun slot hslot => ?_
    obtain ⟨f, hf, hof⟩ := exists_of_mem_slots h hslot
    obtain ⟨kept, t, -, rfl, hpipeline, -⟩ := Slot.ofFeature_eq_ok hf hof
    rw [hpipeline, Scripted.featureName_join, Scripted.featureName_of_isName hf.name]
  have hnodup := nodup_slots h
  unfold ofTexts at h ⊢
  split at h
  · cases h
  case h_2 features hfeatures =>
    have hconfiguration := configuration_of_new hfaults h
    rw [hnames, Scripted.distinct_of_nodup hnodup] at hconfiguration
    exact hconfiguration

end Extractor

end AudioFeatures
