import AudioFeatures.Proofs.Extractor.Results

/-! # The keys of results

An engine keys its results by the names that it reads from the pipelines: what stands in front of
the first bracket, without the blanks around it. An extractor compares the names of its features as
they are and asks for one result per feature. The engine has as many exactly if it tells them apart,
too.
-/

namespace AudioFeatures

open Engine Engine.Accounted

variable {c : Catalog} {config : Config} {locals : Condition.Locals} {f : Feature}
  {features : List Feature} {slot : Slot} {slots : List Slot} {x : Extractor} {held : List String}
  {samples : List Int16} {s t : State}

/-- The engine reads the name of a slot's pipeline as it would read the name of the feature. -/
theorem Slot.featureName_pipeline (h : ofFeature f locals c = .ok slot) :
    Scripted.featureName slot.pipeline = Scripted.featureName f.name := by
  obtain ⟨-, hpipeline, -⟩ := setUpAs_of_ofFeature h
  obtain ⟨kept, t, -, hjoin⟩ := Feature.exists_included_of_compile hpipeline
  rw [hjoin, Scripted.featureName_join, name_of_ofFeature h]

namespace Extractor

/-- The names under which the engine keeps features. -/
def keys (features : List Feature) : List String :=
  features.map fun f => Scripted.featureName f.name

/-- The engine holds the keys of the features, each of them once, while the extractor asks for as
many results as there are features. -/
structure Keyed (x : Extractor) (features : List Feature) (s : State) (held : List String) :
    Prop where
  configuration : s.configurations[x.configuration.id]? = some held
  nodup : held.Nodup
  mem_iff : ∀ key, key ∈ held ↔ key ∈ keys features
  resultCount : x.resultCount.toInt = features.length

theorem keys_of_prepare (h : prepare c features config = .ok slots) :
    slots.map (fun slot => Scripted.featureName slot.pipeline) = keys features := by
  obtain ⟨-, hslots⟩ := prepare_eq_ok h
  exact map_eq_map_of_forall₂ (hslots.flip.imp fun _ _ hof => Slot.featureName_pipeline hof)

theorem exists_prepare_duplicate (config : Config) (h : ¬ (features.map (·.name)).Nodup) :
    ∃ name, prepare c features config = .error (.duplicateFeature name) := by
  rw [prepare]
  cases hrepeated : repeated? [] (features.map (·.name)) with
  | some name => exact ⟨name, rfl⟩
  | none => exact absurd (repeated?_eq_none_iff.1 hrepeated).1 h

theorem keyed_of_new (hfaults : s.faults = [])
    (h : ((new c features config).run engine s).value = .ok x) :
    x.Keyed features ((new c features config).run engine s).state
      (Scripted.distinct (keys features)) := by
  have hx := isSetUp_of_new h
  obtain ⟨-, hslots⟩ := prepare_eq_ok hx.slots
  obtain ⟨-, -, hconfiguration⟩ := configuration_of_new hfaults h
  rw [keys_of_prepare hx.slots] at hconfiguration
  exact {
    configuration := hconfiguration
    nodup := Scripted.nodup_distinct _
    mem_iff := fun key => Scripted.mem_distinct
    resultCount := by rw [hx.resultCount, Int32.toInt_ofNat_of_lt hx.length_lt, hslots.length_eq] }

theorem Keyed.of_follows (h : x.Keyed features s held) (hfollows : Follows s t) :
    x.Keyed features t held :=
  { h with configuration := hfollows.configuration h.configuration }

theorem Keyed.length_le (h : x.Keyed features s held) : held.length ≤ features.length := by
  have hsub : held ⊆ keys features := fun key hkey => (h.mem_iff key).1 hkey
  have hle := (h.nodup.subperm hsub).length_le
  rwa [keys, List.length_map] at hle

/-- The engine holds as many features as it is asked for if it can tell them apart. -/
theorem Keyed.length_eq_iff (h : x.Keyed features s held) :
    held.length = features.length ↔ (keys features).Nodup := by
  have hperm : held.Perm (Scripted.distinct (keys features)) :=
    (List.perm_ext_iff_of_nodup h.nodup (Scripted.nodup_distinct _)).2 fun key =>
      (h.mem_iff key).trans Scripted.mem_distinct.symm
  rw [hperm.length_eq, ← Scripted.length_distinct_eq_iff, keys, List.length_map]

/-- An extraction has a result for each feature that the engine holds, whatever number of them is
asked for. -/
theorem Keyed.run_calculateRaw (h : x.Keyed features t held) (hfaults : t.faults = [])
    (hsamples : samples.length = x.config.bufferSize.toNat) :
    let o := (x.calculateRaw samples).run engine t
    (∃ raw, o.value.1 = .ok raw ∧ raw.size = held.length) ∧
      o.state.requested = t.requested ++ [x.resultCount] := by
  intro o
  have hcount : held.length < 2 ^ 31 := by
    have := h.length_le
    have := h.resultCount
    have := x.resultCount.toInt_lt
    omega
  constructor
  · have hvalue := value_calculateRaw hfaults h.configuration hsamples
    exact ⟨_, congrArg Prod.fst hvalue, size_batch hfaults hcount⟩
  · have hinput : ¬ (samples.length != x.config.bufferSize.toNat) = true := by simpa using hsamples
    show ((x.calculateRaw samples).run engine t).state.requested = _
    rw [calculateRaw, if_neg hinput, Dialogue.state_bind, value_extract hfaults h.configuration]
    rfl

theorem Keyed.withSamples (h : x.Keyed features s held) (buffer : SampleBuffer)
    (size_buffer : buffer.size = x.config.bufferSize.toNat) :
    { x with buffer, size_buffer : Extractor }.Keyed features s held :=
  ⟨h.configuration, h.nodup, h.mem_iff, h.resultCount⟩

/-- Features are refused where one name is given twice. An extractor that was opened asks for as
many results as the engine holds features, and gets as many, exactly if the names that the engine
reads differ as well. -/
theorem keyed_new {α : Type} (c : Catalog) (features : List Feature) (config : Config)
    (hfaults : s.faults = []) (d : Talk α) :
    let o := (new c features config).run engine s
    (¬ (features.map (·.name)).Nodup → ∃ name, o.value = .error (.duplicateFeature name)) ∧
      ∀ x, o.value = .ok x → ∃ held, x.Keyed features o.state held ∧
        (held.length = features.length ↔ (keys features).Nodup) ∧
        ∀ (buffer : SampleBuffer) (size_buffer : buffer.size = x.config.bufferSize.toNat)
          (samples : List Int16), samples.length = x.config.bufferSize.toNat →
          let t := (d.run engine o.state).state
          let p := ({ x with buffer, size_buffer : Extractor }.calculateRaw samples).run engine t
          (∃ raw, p.value.1 = .ok raw ∧ raw.size = held.length) ∧
            p.state.requested = t.requested ++ [x.resultCount] := by
  intro o
  constructor
  · intro hrepeated
    obtain ⟨name, hname⟩ : ∃ name, prepare c features config = .error (.duplicateFeature name) :=
      exists_prepare_duplicate config hrepeated
    refine ⟨name, ?_⟩
    show ((new c features config).run engine s).value = _
    rw [new, hname]
    rfl
  · intro x hx
    have hkeyed : x.Keyed features o.state (Scripted.distinct (keys features)) :=
      keyed_of_new hfaults hx
    refine ⟨_, hkeyed, hkeyed.length_eq_iff, ?_⟩
    intro buffer size_buffer samples hsamples t p
    have hlater : Follows o.state t := follows_run d o.state
    have hfaultless : t.faults = [] := hlater.faults.trans ((follows_run _ s).faults.trans hfaults)
    exact ((hkeyed.withSamples buffer size_buffer).of_follows hlater).run_calculateRaw hfaultless
      hsamples

end Extractor

/-! ## Names with blanks around them -/

namespace Levels

def paired (first second : String) : List Feature := [⟨first, [level]⟩, ⟨second, [level]⟩]

def openingPaired (first second : String) : Talk (Except Error Extractor) :=
  Extractor.new catalog (paired first second) settings

/-- The two features as they are set up. -/
def openedPaired (first second : String) : Extractor :=
  { opened with slots := [⟨⟨first, [level]⟩, first ++ " [Level]", some "int"⟩,
      ⟨⟨second, [level]⟩, second ++ " [Level]", some "int"⟩] }

end Levels

/-- A blank behind one of two names that differ without it. -/
theorem Extractor.keyed_new_blank :
    let o := (Levels.openingPaired "Loud" "Quiet ").run engine {}
    let x := Levels.openedPaired "Loud" "Quiet "
    let p := (x.calculateRaw [1, 2]).run engine o.state
    o.value = .ok x ∧ x.resultCount = 2 ∧ (∃ raw, p.value.1 = .ok raw ∧ raw.size = 2) ∧
      p.state.requested = [2] := by
  have hopened : ((Levels.openingPaired "Loud" "Quiet ").run engine {}).value =
      .ok (Levels.openedPaired "Loud" "Quiet ") := by cbv
  have hkeys : (keys (Levels.paired "Loud" "Quiet ")).Nodup := by
    have hread : keys (Levels.paired "Loud" "Quiet ") = ["Loud", "Quiet"] := by cbv
    rw [hread]
    decide
  have hfaults : ({} : State).faults = [] := rfl
  obtain ⟨-, haccepted⟩ := keyed_new Levels.catalog (Levels.paired "Loud" "Quiet ")
    Levels.settings hfaults (pure () : Talk Unit)
  obtain ⟨held, -, hlength, hextraction⟩ := haccepted _ hopened
  have hheld : held.length = 2 := hlength.2 hkeys
  obtain ⟨hraw, hrequested⟩ := hextraction (.silent 2) rfl [1, 2] rfl
  rw [hheld] at hraw
  exact ⟨hopened, rfl, hraw, hrequested⟩

/-- The engine reads one name where two were given: the extractor asks for two results, and there is
one. -/
theorem Extractor.not_keyed_of_blank :
    let o := (Levels.openingPaired "Loud" "Loud ").run engine {}
    let x := Levels.openedPaired "Loud" "Loud "
    let p := (x.calculateRaw [1, 2]).run engine o.state
    o.value = .ok x ∧ o.state.configurations[x.configuration.id]? = some ["Loud"] ∧
      x.resultCount = 2 ∧ p.value.1.map RawExtraction.size = .ok 1 ∧ p.state.requested = [2] :=
  ⟨by cbv, by cbv, rfl, by cbv, by cbv⟩

end AudioFeatures
