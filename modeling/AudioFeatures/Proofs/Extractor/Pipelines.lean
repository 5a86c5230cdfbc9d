import AudioFeatures.Proofs.Extractor.Overloads
import AudioFeatures.Proofs.Extractor.Questions
import AudioFeatures.Scripting.Functions

/-! # What engines are set up with

An extractor that is opened with texts sets its engine up once. The pipelines that it hands over are
those that the texts have on their own: to look up the stages of a feature, once or twice and in
whatever catalog, does not change the pipeline.
-/

namespace AudioFeatures

open Engine

variable {c : Catalog} {config : Config} {locals : Condition.Locals} {f g : Feature} {slot : Slot}
  {features : List Feature} {texts : List String} {x : Extractor} {R : Responder interface}
  {s : R.State}

namespace Feature

/-- Features have the same pipeline before and after a lookup, or fail to have one alike. -/
theorem compile_resolveAll (h : c.resolveAll f = .ok g) (locals : Condition.Locals) :
    g.compile locals = f.compile locals := by
  rw [← compile_unresolved, unresolved_of_resolveAll h, compile_unresolved]

theorem IsSetUpAs.compile (h : f.IsSetUpAs c g) (locals : Condition.Locals) :
    g.compile locals = f.compile locals := by
  obtain rfl | h := h.cases
  · rfl
  · exact compile_resolveAll h locals

end Feature

/-- The pipeline of a slot is the one that its text has without a catalog. -/
theorem Slot.compile_of_ofFeature {text : String}
    (htext : (Feature.parse text >>= c.resolveAll) = .ok f)
    (hslot : ofFeature f locals c = .ok slot) :
    (Feature.parse text >>= fun g => g.compile locals) = .ok slot.pipeline := by
  obtain ⟨g, hparse, hg⟩ := bind_eq_ok_iff.1 htext
  obtain ⟨hsetup, hpipeline, -⟩ := setUpAs_of_ofFeature hslot
  refine bind_eq_ok_iff.2 ⟨g, hparse, ?_⟩
  calc g.compile locals = f.compile locals := (Feature.compile_resolveAll hg locals).symm
    _ = slot.feature.compile locals := (hsetup.compile locals).symm
    _ = .ok slot.pipeline := hpipeline

/-! ## The setup -/

namespace Engine

/-- The pipelines of a setup. -/
def setupPipelines? : Event interface → Option (List String)
  | .call (.setup pipelines _ _) _ => some pipelines
  | _ => none

theorem setupPipelines?_of_isSetting {q : Request} (h : q.isSetting = true) (r : q.Reply) :
    setupPipelines? (.call q r) = none := by
  cases q with
  | setup => cases h
  | _ => rfl

end Engine

namespace Extractor

/-- The steps of an opening: settings, and then one setup. -/
theorem events_new (h : ((new c features config).run R s).value = .ok x) :
    ((new c features config).run R s).events = (config.tunables.apply.run R s).events ++
      [.call (.setup x.pipelines config.bufferSize (Int32.ofNat config.samplingRate.toNat))
        (some x.configuration)] := by
  unfold new at h ⊢
  split at h
  · cases h
  case h_2 slots hslots =>
    rw [Dialogue.value_bind] at h
    rw [Dialogue.events_bind]
    split at h
    · cases h
    case h_2 pipelines samplingRate resultCount hsetup =>
      obtain ⟨hpipelines, hrate, -, -⟩ := setupArguments_eq_ok hsetup
      dsimp only at hpipelines hrate
      subst hpipelines hrate
      rw [Dialogue.value_bind, ask] at h
      rw [Dialogue.events_bind, ask, Dialogue.events_request]
      generalize ((Dialogue.request (I := interface) _).run R _).value = configuration at h ⊢
      cases configuration with
      | none => cases h
      | some configuration =>
        cases h
        rfl

theorem events_ofTexts (h : ((ofTexts c texts config).run R s).value = .ok x) :
    ((ofTexts c texts config).run R s).events = (config.tunables.apply.run R s).events ++
      [.call (.setup x.pipelines config.bufferSize (Int32.ofNat config.samplingRate.toNat))
        (some x.configuration)] := by
  unfold ofTexts at h ⊢
  split at h
  · cases h
  · exact events_new h

theorem setups_ofTexts (h : ((ofTexts c texts config).run R s).value = .ok x) :
    ((ofTexts c texts config).run R s).events.filterMap setupPipelines? = [x.pipelines] := by
  have hsettings : (config.tunables.apply.run R s).events.filterMap setupPipelines? = [] := by
    refine List.filterMap_eq_nil_iff.2 fun e he => ?_
    obtain ⟨q, r, hq, rfl⟩ := config.tunables.asks_apply.exists_call he
    exact setupPipelines?_of_isSetting hq r
  rw [events_ofTexts h, List.filterMap_append, hsettings]
  rfl

end Extractor

/-! ## Texts without a catalog -/

namespace Scripting

theorem Value.toIntIn_int {low high n : Int} (h : low ≤ n ∧ n < high) :
    toIntIn low high (.int n) = .ok n := by
  rw [toIntIn]
  exact if_pos h

theorem Value.toUInt32_int (n : UInt32) : toUInt32 (.int n.toNat) = .ok n := by
  have hn := n.toNat_lt
  rw [toUInt32, toIntIn_int ⟨Int.natCast_nonneg _, by omega⟩]
  exact congrArg Except.ok UInt32.ofNat_toNat

theorem Value.toUInt64_int (n : UInt64) : toUInt64 (.int n.toNat) = .ok n := by
  have hn := n.toNat_lt
  rw [toUInt64, toIntIn_int ⟨Int.natCast_nonneg _, by omega⟩]
  exact congrArg Except.ok UInt64.ofNat_toNat

/-- The arguments by which a script names a stream. -/
def streamArguments (text : String) (samplingRate channels : UInt32) (bufferSize : UInt64) :
    Arguments :=
  [("text", .text text), ("sampling_rate", .int samplingRate.toNat),
    ("channels", .int channels.toNat), ("buffer_size", .int bufferSize.toNat)]

/-- A script gets the pipeline that a text has on its own. -/
theorem compileFeature_stream (text : String) (samplingRate channels : UInt32)
    (bufferSize : UInt64) :
    compileFeature (streamArguments text samplingRate channels bufferSize) =
      (((Feature.parse text >>= fun f =>
        f.compile (Config.localsOf samplingRate channels bufferSize)).mapError .failed).map
          Value.text) := by
  have hcheck : Signature.check ⟨["text", "sampling_rate"], ["channels", "buffer_size"]⟩
      (streamArguments text samplingRate channels bufferSize) = .ok () := rfl
  have htext : (streamArguments text samplingRate channels bufferSize).required "text"
      Value.toText = .ok text := rfl
  have hrate : (streamArguments text samplingRate channels bufferSize).required "sampling_rate"
      Value.toUInt32 = .ok samplingRate := Value.toUInt32_int samplingRate
  have hchannels : (streamArguments text samplingRate channels bufferSize).optional "channels" 1
      Value.toUInt32 = .ok channels := Value.toUInt32_int channels
  have hsize : (streamArguments text samplingRate channels bufferSize).optional "buffer_size" 0
      Value.toUInt64 = .ok bufferSize := Value.toUInt64_int bufferSize
  rw [compileFeature, hcheck, htext, hrate, hchannels, hsize]
  show ((Feature.parse text >>= fun f => f.compile _).mapError Exception.failed >>= fun pipeline =>
    pure (Value.text pipeline)) = _
  cases Feature.parse text >>= fun f => f.compile _ <;> rfl

end Scripting

namespace Extractor

/-- The engine of an extractor that was opened with texts was set up with one pipeline for each of
them: the one that the text has without a catalog, as scripts can have it compiled. No lookup in any
catalog changes the pipeline of a feature. -/
theorem pipelines_ofTexts (h : ((ofTexts c texts config).run R s).value = .ok x) :
    ((ofTexts c texts config).run R s).events.filterMap setupPipelines? = [x.pipelines] ∧
      List.Forall₂ (fun text pipeline =>
        (Feature.parse text >>= fun f => f.compile
          (Config.localsOf config.samplingRate config.channels config.bufferSize)) =
            .ok pipeline ∧
        Scripting.compileFeature (Scripting.streamArguments text config.samplingRate
          config.channels config.bufferSize) = .ok (.text pipeline)) texts x.pipelines ∧
      ∀ (d : Catalog) (f g : Feature) (locals : Condition.Locals), d.resolveAll f = .ok g →
        g.compile locals = f.compile locals := by
  refine ⟨setups_ofTexts h, ?_, fun d f g locals hg => Feature.compile_resolveAll hg locals⟩
  rw [pipelines, List.forall₂_map_right_iff]
  refine (forall₂_slots h).imp ?_
  rintro text slot ⟨f, htext, hslot⟩
  have hcompile := Slot.compile_of_ofFeature htext hslot
  refine ⟨hcompile, ?_⟩
  rw [Scripting.compileFeature_stream, ← Config.locals, hcompile]
  rfl

/-- A stage with overloads is looked up behind one that takes no part. -/
theorem pipelines_ofTexts_overloaded :
    ((Peaks.opening 1).run Accounted.engine {}).value = .ok (Peaks.opened 1 "Top [Peak]") ∧
      ((Peaks.opening 1).run Accounted.engine {}).events.filterMap setupPipelines? =
        [["Top [Peak]"]] ∧
      Scripting.compileFeature (Scripting.streamArguments
        "Top [Window\x7bchannels == 2\x7d, Peak]" 16000 1 4) = .ok (.text "Top [Peak]") := by
  have h : ((Peaks.opening 1).run Accounted.engine {}).value =
      .ok (Peaks.opened 1 "Top [Peak]") := by cbv
  obtain ⟨hsetups, hpipelines, -⟩ := pipelines_ofTexts h
  exact ⟨h, hsetups, (List.forall₂_cons.1 hpipelines).1.2⟩

end Extractor

end AudioFeatures
