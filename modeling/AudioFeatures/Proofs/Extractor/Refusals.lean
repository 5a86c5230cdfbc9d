import AudioFeatures.Proofs.Engine.ForeignText
import AudioFeatures.Proofs.Engine.Ledger
import AudioFeatures.Proofs.Extractor.Pipelines
import AudioFeatures.Proofs.Extractor.Results

/-! # Openings that never reach the setup

An opening can fail before the engine is set up. Where a feature is refused the engine was not asked
anything. Where a pipeline cannot be passed to the engine, or a number does not fit, its settings
were changed before and stay changed.
-/

namespace AudioFeatures

open Engine

variable {c : Catalog} {features : List Feature} {config : Config} {slots : List Slot} {e : Error}
  {R : Responder interface} {s : R.State}

/-! ## Settings -/

namespace Tunables

variable {t : Tunables}

/-- The steps in which the given settings are changed. -/
def changes (t : Tunables) : List (Event interface) :=
  (t.maxThreads.map fun n => .call (.setMaxThreads n) ()).toList ++
    ((t.useSimd.map fun b => .call (.setUseSimd b) ()).toList ++
      ((t.cpuCacheSize.map fun n => .call (.setCpuCacheSize n) ()).toList ++
        (t.chunkSize.map fun n => .call (.setChunkSize n) ()).toList))

theorem events_apply (t : Tunables) (R : Responder interface) (s : R.State) :
    (t.apply.run R s).events = t.changes := by
  rcases t with ⟨_ | n, _ | b, _ | c, _ | k⟩ <;> rfl

theorem changes_eq_nil_iff : t.changes = [] ↔ t = {} := by
  rcases t with ⟨_ | n, _ | b, _ | c, _ | k⟩ <;> simp [changes]

/-- Settings are neither handed over nor given back. -/
theorem sum_changes (t : Tunables) :
    (t.changes.map acquiredBy).sum = 0 ∧ (t.changes.map releasedBy).sum = 0 := by
  rcases t with ⟨_ | n, _ | b, _ | c, _ | k⟩ <;> exact ⟨rfl, rfl⟩

end Tunables

/-! ## Arguments -/

namespace Extractor

/-- The engine cannot be given the pipelines, for one holds the character that would end it, or it
cannot be given one of the two numbers. -/
def Unfit (slots : List Slot) (config : Config) : Prop :=
  (∃ slot ∈ slots, '\x00' ∈ slot.pipeline.toList) ∨
    2 ^ 31 ≤ config.samplingRate.toNat ∨ 2 ^ 31 ≤ slots.length

theorem exists_setupArguments_eq_error_iff :
    (∃ e, setupArguments slots config = .error e) ↔ Unfit slots config := by
  rw [Unfit]
  cases hchecked : (slots.map (·.pipeline)).mapM ForeignText.check with
  | error e =>
    obtain ⟨pipeline, hmem, hcheck⟩ := exists_of_mapM_eq_error hchecked
    obtain ⟨slot, hslot, rfl⟩ := List.mem_map.1 hmem
    have hzero := ForeignText.exists_check_eq_error_iff.1 ⟨e, hcheck⟩
    refine ⟨fun _ => .inl ⟨slot, hslot, hzero⟩, fun _ => ⟨e, ?_⟩⟩
    rw [setupArguments, hchecked]
    rfl
  | ok pipelines =>
    have hzero : ¬∃ slot ∈ slots, '\x00' ∈ slot.pipeline.toList := by
      rintro ⟨slot, hslot, hzero⟩
      obtain ⟨e, hcheck⟩ := ForeignText.exists_check_eq_error_iff.2 hzero
      obtain ⟨e', he'⟩ := mapM_eq_error_of_mem (List.mem_map_of_mem hslot) hcheck
      cases hchecked.symm.trans he'
    rw [setupArguments, hchecked, ok_bind]
    split
    case isTrue h =>
      simp [hzero, pure, Except.pure]
      omega
    case isFalse h =>
      simp [hzero]
      omega

/-! ## Openings -/

theorem run_new_of_prepare (h : prepare c features config = .error e) :
    (new c features config).run R s = ⟨.error e, s, []⟩ := by
  unfold new
  rw [h]
  rfl

theorem run_new_of_setupArguments (hslots : prepare c features config = .ok slots)
    (h : setupArguments slots config = .error e) :
    (new c features config).run R s =
      ⟨.error e, (config.tunables.apply.run R s).state, config.tunables.changes⟩ := by
  unfold new
  rw [hslots]
  show (Dialogue.bind config.tunables.apply _).run R s = _
  rw [Dialogue.run_bind]
  simp only [h, Tunables.events_apply]
  simp [Dialogue.run, Pure.pure]

theorem setups_new {r : List String × Int32 × Int32}
    (hslots : prepare c features config = .ok slots) (h : setupArguments slots config = .ok r) :
    ((new c features config).run R s).events.filterMap setupPipelines? ≠ [] := by
  unfold new
  rw [hslots]
  dsimp only
  rw [Dialogue.events_bind, h]
  dsimp only
  rw [Dialogue.events_bind, ask, Dialogue.events_request]
  simp [setupPipelines?]

/-- An opening that fails without a setup failed in one of two ways. -/
theorem run_new_cases (h : ((new c features config).run R s).value = .error e)
    (hsetup : ((new c features config).run R s).events.filterMap setupPipelines? = []) :
    (prepare c features config = .error e ∧
        (new c features config).run R s = ⟨.error e, s, []⟩) ∨
      ∃ slots, prepare c features config = .ok slots ∧ Unfit slots config ∧
        (new c features config).run R s =
          ⟨.error e, (config.tunables.apply.run R s).state, config.tunables.changes⟩ := by
  cases hslots : prepare c features config with
  | error e' =>
    have hrun := run_new_of_prepare hslots (R := R) (s := s)
    rw [hrun] at h
    cases h
    exact .inl ⟨rfl, hrun⟩
  | ok slots =>
    cases hsetups : setupArguments slots config with
    | error e' =>
      have hrun := run_new_of_setupArguments hslots hsetups (R := R) (s := s)
      rw [hrun] at h
      cases h
      exact .inr ⟨slots, rfl, exists_setupArguments_eq_error_iff.1 ⟨_, hsetups⟩, hrun⟩
    | ok r => exact absurd hsetup (setups_new hslots hsetups)

/-- An opening that fails without a setup leaves the engine alone exactly if a feature was refused
or no setting is given. Otherwise the engine cannot be given what the features come to, and its
settings are changed. Nothing is handed over or given back in any case. -/
theorem events_of_unasked (h : ((new c features config).run R s).value = .error e)
    (hsetup : ((new c features config).run R s).events.filterMap setupPipelines? = []) :
    let o := (new c features config).run R s
    (o.events = [] ↔ prepare c features config = .error e ∨ config.tunables = {}) ∧
      (o.events = [] → o.state = s) ∧
      (prepare c features config = .error e ∨ o.events = config.tunables.changes ∧
        ∃ slots, prepare c features config = .ok slots ∧ Unfit slots config) ∧
      (o.events.map acquiredBy).sum = 0 ∧ (o.events.map releasedBy).sum = 0 := by
  intro o
  refine ⟨?_, Dialogue.state_of_events_eq_nil, ?_⟩
  · rcases run_new_cases h hsetup with ⟨hrefused, hrun⟩ | ⟨slots, hslots, -, hrun⟩
    · simp [o, hrun, hrefused]
    · simp [o, hrun, hslots, Tunables.changes_eq_nil_iff]
  · rcases run_new_cases h hsetup with ⟨hrefused, hrun⟩ | ⟨slots, hslots, hunfit, hrun⟩
    · simp [o, hrun, hrefused]
    · have hsum := config.tunables.sum_changes
      have hevents : o.events = config.tunables.changes := congrArg (·.events) hrun
      rw [hevents]
      exact ⟨.inr ⟨rfl, slots, hslots, hunfit⟩, hsum⟩

end Extractor

/-! ## Settings that stay changed -/

namespace Levels

/-- A stage with a setting whose value holds a zero. -/
def zeroed : List Feature :=
  [⟨"Loud", [{ level with parameters := .ofList [("scale", "a\x00b")] }]⟩]

/-- More samples in a second than the engine can be told. -/
def fast : Config := { settings with samplingRate := 0x80000000, tunables.maxThreads := some 4 }

def vectorless : Config := { settings with tunables.useSimd := some false }

end Levels

theorem Extractor.events_of_unasked_zeroed :
    let o := (new Levels.catalog Levels.zeroed Levels.vectorless).run Accounted.engine {}
    o.value = .error (.invalidString (.interiorNul 19)) ∧
      o.events.filterMap setupPipelines? = [] ∧ o.events ≠ [] := by
  have h : ((new Levels.catalog Levels.zeroed Levels.vectorless).run Accounted.engine {}).value =
      .error (.invalidString (.interiorNul 19)) := by cbv
  have hsetup : ((new Levels.catalog Levels.zeroed Levels.vectorless).run Accounted.engine
      {}).events.filterMap setupPipelines? = [] := by cbv
  have hprepare : ∃ slots, prepare Levels.catalog Levels.zeroed Levels.vectorless = .ok slots :=
    ⟨_, by cbv⟩
  refine ⟨h, hsetup, fun hnil => ?_⟩
  obtain ⟨slots, hslots⟩ := hprepare
  rcases (events_of_unasked h hsetup).1.1 hnil with hrefused | hnone
  · cases hslots.symm.trans hrefused
  · cases hnone

/-- A rate that does not fit is found after the setting was changed, and the engine is not asked for
a setup. -/
theorem Extractor.events_new_fast :
    let o := (new Levels.catalog [⟨"Loud", [Levels.level]⟩] Levels.fast).run Accounted.engine {}
    o.value = .error (.setupFailed 1) ∧ o.events.filterMap setupPipelines? = [] ∧
      o.events = [.call (.setMaxThreads 4) ()] ∧ o.state.settings.maxThreads = 4 ∧
      ({} : Accounted.State).settings.maxThreads = 1 :=
  ⟨by cbv, by cbv, by cbv, by cbv, rfl⟩

end AudioFeatures
