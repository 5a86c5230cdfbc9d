import AudioFeatures.Engine.Accounted
import AudioFeatures.Proofs.Extractor.Slots

/-! # The last stage that takes part

The conditions of a feature's stages are evaluated once for the pipeline and once for the format of
the results. Both find the same last stage: the pipeline ends with it, and its own format is the one
that results are decoded with.
-/

namespace AudioFeatures

open Engine

variable {c : Catalog} {config : Config} {locals : Condition.Locals} {f : Feature} {slot : Slot}
  {kept ts : List Transform} {t : Transform}

namespace Feature

/-- The stage takes part, and no stage behind it does. -/
def EndsWith (f : Feature) (locals : Condition.Locals) (t : Transform) : Prop :=
  ∃ before after, f.stages = before ++ t :: after ∧
    (∀ condition ∈ t.condition, Condition.holds condition locals = .ok true) ∧
    ∀ u ∈ after, ∃ condition ∈ u.condition, Condition.holds condition locals = .ok false

theorem isIncluded_of_included_nil (h : included locals ts = .ok []) :
    ∀ t ∈ ts, t.isIncluded locals = .ok false := by
  induction ts with
  | nil => simp
  | cons t ts ih =>
    obtain ⟨b, rest, hb, hrest, hkept⟩ := included_cons_eq_ok h
    cases b with
    | true => cases hkept
    | false =>
      obtain rfl : rest = [] := hkept.symm
      exact List.forall_mem_cons.2 ⟨hb, ih hrest⟩

theorem exists_last_of_included (h : included locals ts = .ok (kept ++ [t])) :
    ∃ before after, ts = before ++ t :: after ∧ t.isIncluded locals = .ok true ∧
      ∀ u ∈ after, u.isIncluded locals = .ok false := by
  induction ts generalizing kept with
  | nil =>
    have : [] = kept ++ [t] := Except.ok.inj h
    simp at this
  | cons u us ih =>
    obtain ⟨b, rest, hb, hrest, hkept⟩ := included_cons_eq_ok h
    -- whatever becomes of this stage, the last one may be found behind it
    have hlater {kept : List Transform} (he : rest = kept ++ [t]) :
        ∃ before after, u :: us = before ++ t :: after ∧ t.isIncluded locals = .ok true ∧
          ∀ u ∈ after, u.isIncluded locals = .ok false := by
      obtain ⟨before, after, hus, hlast⟩ := ih (he ▸ hrest)
      exact ⟨u :: before, after, by rw [hus, List.cons_append], hlast⟩
    cases b with
    | false => exact hlater hkept.symm
    | true =>
      cases kept with
      | nil =>
        obtain ⟨rfl, rfl⟩ := List.cons.inj hkept
        exact ⟨[], us, rfl, hb, isIncluded_of_included_nil hrest⟩
      | cons v kept => exact hlater (List.cons.inj hkept).2.symm

theorem endsWith_of_included (h : included locals f.stages = .ok (kept ++ [t])) :
    f.EndsWith locals t := by
  obtain ⟨before, after, hstages, ht, hafter⟩ := exists_last_of_included h
  exact ⟨before, after, hstages, Transform.isIncluded_eq_true_iff.1 ht, fun u hu =>
    Transform.isIncluded_eq_false_iff.1 (hafter u hu)⟩

theorem exists_join_concat (name : String) (stages : List String) (last : String) :
    ∃ front, join name (stages ++ [last]) = front ++ last ++ "]" := by
  by_cases h : stages = []
  · exact ⟨name ++ " [", by rw [h, join, List.nil_append, String.intercalate_singleton]⟩
  · refine ⟨name ++ " [" ++ (", ".intercalate stages ++ ", "), ?_⟩
    rw [join, String.intercalate_append_of_ne_nil h (List.cons_ne_nil _ _),
      String.intercalate_singleton]
    simp only [String.append_assoc]

end Feature

/-- What the slot of a feature knows of the last stage that takes part. -/
structure Slot.EndsWith (slot : Slot) (c : Catalog) (locals : Condition.Locals) (f : Feature)
    (t : Transform) : Prop where
  feature : f.IsSetUpAs c slot.feature
  last : slot.feature.EndsWith locals t
  pipeline : ∃ front, slot.pipeline = front ++ t.pipelineText ++ "]"
  format : slot.format = if t.outputFormat = "" then none else some t.outputFormat
  /-- An entry of the same name has no other format. -/
  entry : t.outputFormat = "" → ∀ entry, c.get? t.name = some entry → entry.outputFormat = ""

/-- A stage without a format was looked up, and a plain entry under its name is what was found. -/
theorem Feature.IsSetUpAs.outputFormat_of_get? {g : Feature} (h : f.IsSetUpAs c g)
    (ht : t ∈ g.stages) (hempty : t.outputFormat = "") (entry : Transform)
    (he : c.get? t.name = some entry) : entry.outputFormat = "" := by
  rw [IsSetUpAs] at h
  split at h
  case isTrue hall =>
    rw [h] at ht
    have hresolved := List.all_eq_true.1 hall t ht
    simp [Transform.isResolved, hempty] at hresolved
  case isFalse =>
    obtain ⟨rs, hrs, rfl⟩ := Catalog.resolveAll_eq_ok h
    exact (Catalog.outputFormat_of_get? hrs ht he).symm.trans hempty

theorem Slot.exists_endsWith (h : ofFeature f locals c = .ok slot) :
    ∃ t, slot.EndsWith c locals f t := by
  obtain ⟨hfeature, hpipeline, hformat⟩ := setUpAs_of_ofFeature h
  obtain ⟨kept, t, hkept, hjoin⟩ := Feature.exists_included_of_compile hpipeline
  have ht : t ∈ slot.feature.stages := (Feature.included_sublist hkept).subset (by simp)
  have hentry := hfeature.outputFormat_of_get? ht
  rw [formatOf_eq hkept hentry] at hformat
  rw [List.map_append, List.map_singleton] at hjoin
  exact ⟨t, {
    feature := hfeature
    last := Feature.endsWith_of_included hkept
    pipeline := hjoin ▸ Feature.exists_join_concat _ _ _
    format := (Except.ok.inj hformat).symm
    entry := hentry }⟩

namespace Extractor

/-- Whether an extractor is opened with features or with texts, each of its slots ends with the last
stage of its feature that takes part. -/
theorem forall₂_endsWith (R : Responder interface) (s : R.State) (x : Extractor) :
    (∀ features, ((new c features config).run R s).value = .ok x →
      List.Forall₂ (fun f slot => ∃ t, slot.EndsWith c config.locals f t) features x.slots) ∧
    (∀ texts, ((ofTexts c texts config).run R s).value = .ok x →
      List.Forall₂ (fun text slot => ∃ f, (Feature.parse text >>= c.resolveAll) = .ok f ∧
        ∃ t, slot.EndsWith c config.locals f t) texts x.slots) := by
  constructor
  · intro features h
    have hslots := slots_of_new h
    unfold prepare at hslots
    split at hslots
    · cases hslots
    · exact (forall₂_of_mapM hslots).imp fun _ _ => Slot.exists_endsWith
  · intro texts h
    exact (forall₂_slots h).imp fun _ _ ⟨f, hf, hslot⟩ => ⟨f, hf, Slot.exists_endsWith hslot⟩

end Extractor

/-! ## A stage without a format at the end -/

namespace Meters

def pre : Transform where
  name := "Pre"
  inputFormat := "Raw<short>"

def level : Transform where
  name := "Level"
  inputFormat := "Raw<short>"
  outputFormat := "int"

def catalog : Catalog := .ofParts [pre, level] []

def settings : Config := { bufferSize := 8, samplingRate := 16000, channels := 1 }

def top : Feature := ⟨"Top", [pre, { level with condition := some "channels == 2" }]⟩

def topSlot : Slot := ⟨top, "Top [Pre]", none⟩

def opened : Extractor where
  configuration := ⟨0⟩
  resultCount := 1
  catalog := catalog
  config := settings
  slots := [topSlot]
  buffer := .silent 8
  size_buffer := rfl

def text : String := "Top [Pre, Level\x7bchannels == 2\x7d]"

def opening : Talk (Except Error Extractor) := Extractor.new catalog [top] settings

def openingText : Talk (Except Error Extractor) := Extractor.ofTexts catalog [text] settings

end Meters

/-- The stage behind the last one has a format, but it takes no part. -/
theorem Extractor.forall₂_endsWith_dropped :
    (Meters.opening.run Accounted.engine {}).value = .ok Meters.opened ∧
      (Meters.openingText.run Accounted.engine {}).value = .ok Meters.opened ∧
      (∃ t, Meters.topSlot.EndsWith Meters.catalog Meters.settings.locals Meters.top t) ∧
      ∃ f, (Feature.parse Meters.text >>= Meters.catalog.resolveAll) = .ok f ∧
        ∃ t, Meters.topSlot.EndsWith Meters.catalog Meters.settings.locals f t := by
  have hnew : (Meters.opening.run Accounted.engine {}).value = .ok Meters.opened := by cbv
  have htexts : (Meters.openingText.run Accounted.engine {}).value = .ok Meters.opened := by cbv
  obtain ⟨hfeatures, hslots⟩ := forall₂_endsWith Accounted.engine {} Meters.opened
  exact ⟨hnew, htexts, (List.forall₂_cons.1 (hfeatures _ hnew)).1,
    (List.forall₂_cons.1 (hslots _ htexts)).1⟩

end AudioFeatures
