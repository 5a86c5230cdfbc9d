import AudioFeatures.Extractor.Basic
import AudioFeatures.Proofs.Catalog.Resolution
import AudioFeatures.Proofs.Engine.Dialogue
import AudioFeatures.Proofs.Feature.Pipeline

/-! # The slots of an extractor

What stands in the slots of an extractor that was opened with texts: the feature that each text
denotes, the pipeline of the stages that take part, and the format of the last of them.
-/

namespace AudioFeatures

open Engine

variable {c : Catalog} {config : Config} {locals : Condition.Locals} {f g : Feature} {slot : Slot}

/-- A feature that a text denotes, looked up in a catalog. -/
structure Feature.LookedUp (c : Catalog) (f : Feature) : Prop where
  name : Text.IsName f.name.toList
  wellNamed : ∀ t ∈ f.stages, t.WellNamed
  resolved : c.resolveStages none f.stages = .ok f.stages

theorem Feature.lookedUp_of_parse {text : String} (h : parse text = .ok g)
    (hf : c.resolveAll g = .ok f) : f.LookedUp c := by
  obtain ⟨hname, -, hstages⟩ := wellNamed_parse h
  obtain ⟨rs, hrs, rfl⟩ := Catalog.resolveAll_eq_ok hf
  refine ⟨hname, fun t ht => ?_, Catalog.resolveStages_again hrs⟩
  have hmem : t.unresolved ∈ rs.map Transform.unresolved := List.mem_map_of_mem ht
  rw [Catalog.unresolved_resolveStages hrs] at hmem
  obtain ⟨u, hu, he⟩ := List.mem_map.1 hmem
  have hwell : u.unresolved.WellNamed := hstages u hu
  rwa [he] at hwell

theorem Feature.unresolved_of_resolveAll (h : c.resolveAll f = .ok g) :
    g.unresolved = f.unresolved := by
  obtain ⟨hstages, hname, -⟩ := Catalog.resolveAll_eq_ok_iff.1 h
  rw [unresolved, unresolved, hname, Catalog.unresolved_resolveStages hstages]

/-- What a feature is set up as: its stages are looked up unless all of them were. -/
def Feature.IsSetUpAs (c : Catalog) (f g : Feature) : Prop :=
  if f.stages.all Transform.isResolved then g = f else c.resolveAll f = .ok g

theorem Feature.IsSetUpAs.cases (h : f.IsSetUpAs c g) : g = f ∨ c.resolveAll f = .ok g := by
  rw [IsSetUpAs] at h
  split at h
  · exact .inl h
  · exact .inr h

namespace Slot

theorem latest_eq (locals : Condition.Locals) (last : Option Transform) (t : Transform) :
    latest locals last t = (t.isIncluded locals).map fun b => if b then some t else last := by
  rw [latest, Transform.isIncluded]
  cases t.condition with
  | none => rfl
  | some condition => cases Condition.holds condition locals <;> rfl

/-- The loop for the format finds the last of the stages that take part. -/
theorem foldlM_latest (locals : Condition.Locals) (ts : List Transform)
    (last : Option Transform) :
    ts.foldlM (latest locals) last =
      (Feature.included locals ts).map fun kept => kept.getLast?.or last := by
  induction ts generalizing last with
  | nil => rfl
  | cons t ts ih =>
    rw [List.foldlM_cons, Feature.included, latest_eq]
    cases t.isIncluded locals with
    | error e => rfl
    | ok b =>
      refine (ih (if b then some t else last)).trans ?_
      cases Feature.included locals ts with
      | error e => rfl
      | ok kept =>
        cases b
        · rfl
        · simp [Except.map, ok_bind, pure, Except.pure, List.getLast?_cons]

/-- The two loops over the conditions of a feature agree: they fail alike, or the last text of the
pipeline is that of the stage whose format is taken. -/
theorem foldlM_latest_agrees (f : Feature) (locals : Condition.Locals) :
    (f.stages.foldlM (latest locals) none).map (Option.map Transform.pipelineText) =
      (f.stages.foldlM (Feature.addStage locals) []).map List.getLast? := by
  rw [foldlM_latest, Feature.foldlM_addStage]
  cases Feature.included locals f.stages with
  | error e => rfl
  | ok kept => simp [Except.map, List.getLast?_map]

/-- Results are decoded with the format of the last stage that takes part, provided that a plain
entry under its name has no format where the stage has none. -/
theorem formatOf_eq {kept : List Transform} {t : Transform}
    (h : Feature.included locals f.stages = .ok (kept ++ [t]))
    (hentry : t.outputFormat = "" → ∀ entry, c.get? t.name = some entry →
      entry.outputFormat = "") :
    formatOf f locals c = .ok (if t.outputFormat = "" then none else some t.outputFormat) := by
  have hlast : f.stages.foldlM (latest locals) none = .ok (some t) := by
    rw [foldlM_latest, h]
    simp [Except.map]
  refine bind_eq_ok_iff.2 ⟨_, hlast, ?_⟩
  by_cases ht : t.outputFormat = ""
  · simp only [ht, bne_self_eq_false, Bool.false_eq_true, if_false, if_true]
    cases he : c.get? t.name with
    | none => rfl
    | some entry => simp [hentry ht entry he, pure, Except.pure]
  · simp [ht, pure, Except.pure]

/-- A slot holds what its feature is set up as. -/
theorem setUpAs_of_ofFeature (h : ofFeature f locals c = .ok slot) :
    f.IsSetUpAs c slot.feature ∧ slot.feature.compile locals = .ok slot.pipeline ∧
      formatOf slot.feature locals c = .ok slot.format := by
  have hparts {g : Feature} (h : (g.compile locals >>= fun pipeline =>
      formatOf g locals c >>= fun format => pure ⟨g, pipeline, format⟩) = .ok slot) :
      slot.feature = g ∧ slot.feature.compile locals = .ok slot.pipeline ∧
        formatOf slot.feature locals c = .ok slot.format := by
    obtain ⟨pipeline, hpipeline, h⟩ := bind_eq_ok_iff.1 h
    obtain ⟨format, hformat, h⟩ := bind_eq_ok_iff.1 h
    cases h
    exact ⟨rfl, hpipeline, hformat⟩
  rw [ofFeature] at h
  rw [Feature.IsSetUpAs]
  split at h
  case isTrue hall =>
    rw [if_pos hall]
    exact hparts h
  case isFalse hall =>
    obtain ⟨g, hg, h⟩ := bind_eq_ok_iff.1 h
    obtain ⟨rfl, hslot⟩ := hparts h
    rw [if_neg hall]
    exact ⟨hg, hslot⟩

theorem name_of_ofFeature (h : ofFeature f locals c = .ok slot) : slot.feature.name = f.name := by
  obtain hf | hf := (setUpAs_of_ofFeature h).1.cases
  · rw [hf]
  · obtain ⟨rs, -, hrs⟩ := Catalog.resolveAll_eq_ok hf
    rw [hrs]

/-- The slot of a feature that was looked up. -/
theorem ofFeature_eq_ok (hf : f.LookedUp c) (h : ofFeature f locals c = .ok slot) :
    ∃ kept t, Feature.included locals f.stages = .ok (kept ++ [t]) ∧ slot.feature = f ∧
      slot.pipeline = Feature.join f.name ((kept ++ [t]).map Transform.pipelineText) ∧
      slot.format = if t.outputFormat = "" then none else some t.outputFormat := by
  obtain ⟨hsetup, hpipeline, hformat⟩ := setUpAs_of_ofFeature h
  -- a second lookup, if there is one, changes nothing
  have hslot : slot.feature = f := by
    obtain hg | hg := hsetup.cases
    · exact hg
    · obtain ⟨rs, hrs, hg⟩ := Catalog.resolveAll_eq_ok hg
      cases hf.resolved.symm.trans hrs
      exact hg
  rw [hslot] at hpipeline hformat
  obtain ⟨kept, t, hkept, hjoin⟩ := Feature.exists_included_of_compile hpipeline
  have hmem : t ∈ f.stages := (Feature.included_sublist hkept).subset (by simp)
  rw [formatOf_eq hkept fun ht entry he =>
    (Catalog.outputFormat_of_get? hf.resolved hmem he).symm.trans ht] at hformat
  exact ⟨kept, t, hkept, hslot, hjoin, (Except.ok.inj hformat).symm⟩

end Slot

theorem ForeignText.eq_of_check {s t : String} (h : check s = .ok t) : s = t := by
  obtain ⟨bytes, -, h⟩ := map_eq_ok_iff.1 h
  exact h

namespace Extractor

theorem setupArguments_eq_ok {slots : List Slot} {r : List String × Int32 × Int32}
    (h : setupArguments slots config = .ok r) :
    r.1 = slots.map (·.pipeline) ∧ r.2.1 = Int32.ofNat config.samplingRate.toNat ∧
      r.2.2 = Int32.ofNat slots.length ∧ slots.length < 2 ^ 31 := by
  obtain ⟨pipelines, hpipelines, h⟩ := bind_eq_ok_iff.1 h
  have hsame := (forall₂_of_mapM hpipelines).imp fun _ _ => ForeignText.eq_of_check
  rw [List.forall₂_eq_eq_eq] at hsame
  split at h
  case isTrue hsize =>
    cases h
    exact ⟨hsame.symm, rfl, rfl, hsize.2⟩
  case isFalse => cases h

/-- An extractor that was set up with features. -/
structure IsSetUp (x : Extractor) (c : Catalog) (features : List Feature) (config : Config) :
    Prop where
  slots : prepare c features config = .ok x.slots
  catalog : x.catalog = c
  config : x.config = config
  resultCount : x.resultCount = Int32.ofNat x.slots.length
  length_lt : x.slots.length < 2 ^ 31

theorem prepare_eq_ok {features : List Feature} {slots : List Slot}
    (h : prepare c features config = .ok slots) :
    repeated? [] (features.map (·.name)) = none ∧
      List.Forall₂ (fun f slot => Slot.ofFeature f config.locals c = .ok slot) features slots := by
  unfold prepare at h
  split at h
  · cases h
  case h_2 hnone => exact ⟨hnone, forall₂_of_mapM h⟩

/-- What an opening yields. -/
theorem exists_of_new {features : List Feature} {R : Responder interface} {s : R.State}
    {x : Extractor} (h : ((new c features config).run R s).value = .ok x) :
    ∃ slots r configuration, prepare c features config = .ok slots ∧
      setupArguments slots config = .ok r ∧
      x = ⟨configuration, r.2.2, c, config, slots, .silent config.bufferSize.toNat, rfl⟩ := by
  unfold new at h
  split at h
  · cases h
  case h_2 slots hslots =>
    rw [Dialogue.value_bind] at h
    split at h
    · cases h
    case h_2 pipelines samplingRate resultCount hsetup =>
      rw [Dialogue.value_bind] at h
      split at h
      · cases h
      · cases h
        exact ⟨slots, _, _, hslots, hsetup, rfl⟩

theorem isSetUp_of_new {features : List Feature} {R : Responder interface} {s : R.State}
    {x : Extractor} (h : ((new c features config).run R s).value = .ok x) :
    x.IsSetUp c features config := by
  obtain ⟨slots, r, configuration, hslots, hsetup, rfl⟩ := exists_of_new h
  obtain ⟨-, -, hcount, hlength⟩ := setupArguments_eq_ok hsetup
  exact ⟨hslots, rfl, rfl, hcount, hlength⟩

theorem slots_of_new {features : List Feature} {R : Responder interface} {s : R.State}
    {x : Extractor} (h : ((new c features config).run R s).value = .ok x) :
    prepare c features config = .ok x.slots := (isSetUp_of_new h).slots

variable {texts : List String} {R : Responder interface} {s : R.State} {x : Extractor}

theorem exists_isSetUp_of_ofTexts (h : ((ofTexts c texts config).run R s).value = .ok x) :
    ∃ features, (texts.mapM fun text => Feature.parse text >>= c.resolveAll) = .ok features ∧
      x.IsSetUp c features config := by
  unfold ofTexts at h
  split at h
  · cases h
  case h_2 features hfeatures => exact ⟨features, hfeatures, isSetUp_of_new h⟩

/-- Texts are opened by way of features with different names. -/
theorem exists_features_of_ofTexts (h : ((ofTexts c texts config).run R s).value = .ok x) :
    ∃ fs : List Feature,
      List.Forall₂ (fun text f => (Feature.parse text >>= c.resolveAll) = .ok f) texts fs ∧
      repeated? [] (fs.map (·.name)) = none ∧
      List.Forall₂ (fun f slot => Slot.ofFeature f config.locals c = .ok slot) fs x.slots := by
  obtain ⟨features, hfeatures, hx⟩ := exists_isSetUp_of_ofTexts h
  obtain ⟨hnone, hslots⟩ := prepare_eq_ok hx.slots
  exact ⟨features, forall₂_of_mapM hfeatures, hnone, hslots⟩

/-- The slots of the texts, one for each. -/
theorem forall₂_slots (h : ((ofTexts c texts config).run R s).value = .ok x) :
    List.Forall₂ (fun text slot => ∃ f : Feature,
      (Feature.parse text >>= c.resolveAll) = .ok f ∧ Slot.ofFeature f config.locals c = .ok slot)
      texts x.slots := by
  obtain ⟨features, hfeatures, -, hslots⟩ := exists_features_of_ofTexts h
  exact forall₂_comp hfeatures hslots

/-- Where the slots of an extractor that was opened with texts come from. -/
theorem exists_of_mem_slots (h : ((ofTexts c texts config).run R s).value = .ok x)
    (hs : slot ∈ x.slots) :
    ∃ f : Feature, f.LookedUp c ∧ Slot.ofFeature f config.locals c = .ok slot := by
  obtain ⟨text, -, f, htext, hslot⟩ := exists_of_mem_forall₂ (forall₂_slots h) hs
  obtain ⟨g, hg, hgf⟩ := bind_eq_ok_iff.1 htext
  exact ⟨f, Feature.lookedUp_of_parse hg hgf, hslot⟩

end Extractor

end AudioFeatures
