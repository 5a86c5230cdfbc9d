import AudioFeatures.Proofs.Extractor.LastStage
import AudioFeatures.Proofs.Feature.BlankCondition

/-! # Features and their texts

An extractor can be opened with texts or with the features that they are read as; what is looked up
twice is found twice. The texts of the features of an extractor that was opened with texts open it
again: a condition of blanks, which a text cannot give back, does not get through the opening.
-/

namespace AudioFeatures

open Engine

variable {c : Catalog} {config : Config} {locals : Condition.Locals} {text : String}
  {texts : List String} {f g : Feature} {parsed features : List Feature} {x : Extractor}

/-- The empty condition has no value. -/
theorem Condition.holds_empty (locals : Locals) :
    holds "" locals = .error (.condition "" .empty) := by cbv

namespace Feature

theorem isSetUpAs_self (h : c.resolveAll f = .ok g) : g.IsSetUpAs c g := by
  rw [IsSetUpAs]
  split
  · rfl
  · exact Catalog.resolveAll_again h

/-- A feature that was read has stages, and none of them was looked up. -/
theorem not_all_isResolved_of_parse (h : parse text = .ok f) :
    ¬ f.stages.all Transform.isResolved = true := by
  intro hall
  obtain ⟨-, hne, -⟩ := wellNamed_parse h
  obtain ⟨t, ht⟩ := List.exists_mem_of_ne_nil _ hne
  have hresolved := List.all_eq_true.1 hall t ht
  rw [← (isRead_of_parse h t ht).unresolved] at hresolved
  exact absurd hresolved (by simp [Transform.isResolved, Transform.unresolved])

theorem isSetUpAs_of_parse (h : parse text = .ok f) (hg : c.resolveAll f = .ok g) :
    f.IsSetUpAs c g := by
  rw [IsSetUpAs, if_neg (not_all_isResolved_of_parse h)]
  exact hg

/-- Where the stages that take part are known, every condition has a value. -/
theorem condition_ne_empty_of_included {ts kept : List Transform}
    (h : included locals ts = .ok kept) : ∀ t ∈ ts, t.condition ≠ some "" := by
  induction ts generalizing kept with
  | nil => exact fun t ht => absurd ht List.not_mem_nil
  | cons t ts ih =>
    obtain ⟨b, rest, hb, hrest, -⟩ := included_cons_eq_ok h
    refine List.forall_mem_cons.2 ⟨fun hempty => ?_, ih hrest⟩
    rw [Transform.isIncluded, hempty] at hb
    cases (Condition.holds_empty locals).symm.trans hb

theorem wellFormed_of_included {kept : List Transform} (h : parse text = .ok f)
    (hg : c.resolveAll f = .ok g) (hkept : included locals g.stages = .ok kept) : g.WellFormed := by
  obtain ⟨hname, hne, -⟩ := wellNamed_parse h
  have hread : g.unresolved = f := (unresolved_of_resolveAll hg).trans (unresolved_of_parse h)
  have hstages : g.stages.map Transform.unresolved = f.stages := congrArg stages hread
  refine ⟨?_, ?_, fun t ht => ?_⟩
  · rwa [← hread] at hname
  · intro hnil
    rw [hnil] at hstages
    exact hne hstages.symm
  · have hmem : t.unresolved ∈ f.stages := hstages ▸ List.mem_map_of_mem ht
    exact (isRead_of_parse h _ hmem).wellFormed (condition_ne_empty_of_included hkept t ht)

/-- The text of a feature that was read, looked up and set up denotes it again. -/
theorem parse_resolveAll_text {kept : List Transform} (h : parse text = .ok f)
    (hg : c.resolveAll f = .ok g) (hkept : included locals g.stages = .ok kept) :
    (parse g.text >>= c.resolveAll) = .ok g := by
  obtain ⟨hname, hne, hstages⟩ := wellFormed_of_included h hg hkept
  have hread : g.unresolved = f := (unresolved_of_resolveAll hg).trans (unresolved_of_parse h)
  have hparse : parse g.text = .ok f := (parse_join hname hne hstages).trans (congrArg _ hread)
  exact bind_eq_ok_iff.2 ⟨f, hparse, hg⟩

end Feature

namespace Slot

theorem ofFeature_eq (h : f.IsSetUpAs c g) : ofFeature f locals c = (do
    let pipeline ← g.compile locals
    let format ← formatOf g locals c
    return ⟨g, pipeline, format⟩) := by
  rw [Feature.IsSetUpAs] at h
  rw [ofFeature]
  split at h
  case isTrue hall =>
    rw [if_pos hall, h]
    rfl
  case isFalse hall =>
    rw [if_neg hall, h]
    rfl

/-- The slot of a feature is the slot of what it is looked up as. -/
theorem ofFeature_of_parse (h : Feature.parse text = .ok f) (hg : c.resolveAll f = .ok g) :
    ofFeature f locals c = ofFeature g locals c := by
  rw [ofFeature_eq (Feature.isSetUpAs_of_parse h hg), ofFeature_eq (Feature.isSetUpAs_self hg)]

theorem ofFeature_eq_error {e : Error} (h : Feature.parse text = .ok f)
    (he : c.resolveAll f = .error e) : ofFeature f locals c = .error e := by
  rw [ofFeature, if_neg (Feature.not_all_isResolved_of_parse h), he]
  rfl

end Slot

namespace Extractor

theorem prepare_of_parse (h : texts.mapM Feature.parse = .ok parsed)
    (hfeatures : parsed.mapM c.resolveAll = .ok features) :
    prepare c parsed config = prepare c features config := by
  have hread : ∀ f ∈ parsed, ∃ text, Feature.parse text = .ok f := by
    intro f hf
    obtain ⟨text, -, htext⟩ := exists_of_mem_forall₂ (forall₂_of_mapM h) hf
    exact ⟨text, htext⟩
  have hlooked := forall₂_of_mapM hfeatures
  have hnames : parsed.map (·.name) = features.map (·.name) := by
    refine map_eq_map_of_forall₂ (hlooked.imp fun f g hg => ?_)
    obtain ⟨-, hname, -⟩ := Catalog.resolveAll_eq_ok_iff.1 hg
    exact hname.symm
  have hslots : (parsed.mapM fun f => Slot.ofFeature f config.locals c) =
      features.mapM fun f => Slot.ofFeature f config.locals c := by
    refine mapM_congr_forall₂ (((List.forall₂_and_left _ _).2 ⟨hread, hlooked⟩).imp ?_)
    rintro f g ⟨⟨text, htext⟩, hg⟩
    exact Slot.ofFeature_of_parse htext hg
  rw [prepare, prepare, hnames, hslots]

/-- What cannot be looked up cannot be prepared. -/
theorem exists_prepare_eq_error {e : Error} (config : Config)
    (h : texts.mapM Feature.parse = .ok parsed)
    (he : parsed.mapM c.resolveAll = .error e) : ∃ e', prepare c parsed config = .error e' := by
  obtain ⟨f, hf, hlookup⟩ := exists_of_mapM_eq_error he
  obtain ⟨text, -, hparse⟩ := exists_of_mem_forall₂ (forall₂_of_mapM h) hf
  unfold prepare
  split
  case h_1 name _ => exact ⟨_, rfl⟩
  case h_2 => exact mapM_eq_error_of_mem hf (Slot.ofFeature_eq_error hparse hlookup)

/-- Opening with texts is opening with the features that they denote, unless it ends before the
engine is asked. -/
theorem ofTexts_of_parse (c : Catalog) (config : Config)
    (h : texts.mapM Feature.parse = .ok parsed) :
    ofTexts c texts config = new c parsed config ∨ ∃ e e',
      ofTexts c texts config = pure (.error e) ∧ new c parsed config = pure (.error e') := by
  have hlookup : (texts.mapM fun text => Feature.parse text >>= c.resolveAll) =
      parsed.mapM c.resolveAll := by
    refine mapM_congr_forall₂ ((forall₂_of_mapM h).imp fun text f hf => ?_)
    rw [hf]
    rfl
  rw [ofTexts, hlookup]
  cases hfeatures : parsed.mapM c.resolveAll with
  | error e =>
    obtain ⟨e', he'⟩ := exists_prepare_eq_error config h hfeatures
    exact .inr ⟨e, e', rfl, by rw [new, he']⟩
  | ok features =>
    refine .inl ?_
    show new c features config = new c parsed config
    rw [new, new, prepare_of_parse h hfeatures]

/-- Whatever engine answers, opening with texts and opening with the features that they are read as
end alike, and the engine is asked the same. -/
theorem run_ofTexts_of_parse (c : Catalog) (config : Config)
    (h : texts.mapM Feature.parse = .ok parsed) (R : Responder interface) (s : R.State) :
    let o := (ofTexts c texts config).run R s
    let p := (new c parsed config).run R s
    ((∃ x, o.value = .ok x ∧ p.value = .ok x) ∨
        ∃ e e', o.value = .error e ∧ p.value = .error e') ∧
      o.events = p.events ∧ o.state = p.state ∧
      ∀ f g, c.resolveAll f = .ok g → c.resolveAll g = .ok g := by
  intro o p
  have hagain (f g : Feature) (h : c.resolveAll f = .ok g) : c.resolveAll g = .ok g :=
    Catalog.resolveAll_again h
  rcases ofTexts_of_parse c config h with hsame | ⟨e, e', hleft, hright⟩
  · have hrun : o = p := congrArg (Dialogue.run R · s) hsame
    rw [hrun]
    refine ⟨?_, rfl, rfl, hagain⟩
    cases hvalue : p.value with
    | ok x => exact .inl ⟨x, rfl, rfl⟩
    | error e => exact .inr ⟨e, e, rfl, rfl⟩
  · have ho : o = ⟨.error e, s, []⟩ := congrArg (Dialogue.run R · s) hleft
    have hp : p = ⟨.error e', s, []⟩ := congrArg (Dialogue.run R · s) hright
    rw [ho, hp]
    exact ⟨.inr ⟨e, e', rfl, rfl⟩, rfl, rfl, hagain⟩

end Extractor

namespace Meters

/-- The text with other blanks. -/
def spacedText : String := "Top[Pre , Level ( )\x7b channels == 2 \x7d ]"

def openingSpaced : Talk (Except Error Extractor) := Extractor.ofTexts catalog [spacedText] settings

/-- What the text is read as. -/
def topRead : Feature :=
  ⟨"Top", [{ name := "Pre" }, { name := "Level", condition := some "channels == 2" }]⟩

def openingRead : Talk (Except Error Extractor) := Extractor.new catalog [topRead] settings

end Meters

namespace Extractor

/-- A stage in front of the last one has no format, so that the stages are looked up twice. -/
theorem run_ofTexts_of_parse_dropped :
    let o := Meters.openingText.run Accounted.engine {}
    let p := Meters.openingRead.run Accounted.engine {}
    [Meters.text].mapM Feature.parse = .ok [Meters.topRead] ∧
      o.value = .ok Meters.opened ∧ p.value = .ok Meters.opened ∧
      o.events = p.events ∧ o.state = p.state := by
  have hparsed : [Meters.text].mapM Feature.parse = .ok [Meters.topRead] := by cbv
  have hopened : (Meters.openingText.run Accounted.engine {}).value = .ok Meters.opened := by cbv
  obtain ⟨hvalue, hevents, hstate, -⟩ :=
    run_ofTexts_of_parse Meters.catalog Meters.settings hparsed Accounted.engine {}
  refine ⟨hparsed, hopened, ?_, hevents, hstate⟩
  rcases hvalue with ⟨x, ho, hp⟩ | ⟨e, e', ho, -⟩
  · exact hp.trans (ho.symm.trans hopened)
  · cases hopened.symm.trans ho

/-! ## Texts of an extractor's features -/

theorem IsSetUp.features_eq (h : x.IsSetUp c features config)
    (hlooked : ∀ f ∈ features, f.LookedUp c) : x.features = features := by
  obtain ⟨-, hslots⟩ := prepare_eq_ok h.slots
  have hsame : List.Forall₂ (fun f slot => slot.feature = f) features x.slots := by
    refine ((List.forall₂_and_left _ _).2 ⟨hlooked, hslots⟩).imp ?_
    rintro f slot ⟨hf, hof⟩
    obtain ⟨-, -, -, hfeature, -⟩ := Slot.ofFeature_eq_ok hf hof
    exact hfeature
  rw [Extractor.features, ← List.forall₂_eq_eq_eq, List.forall₂_map_left_iff]
  exact hsame.flip

theorem IsSetUp.compileAll_features (h : x.IsSetUp c features config) :
    Feature.compileAll x.features x.config.locals = .ok x.pipelines := by
  obtain ⟨-, hslots⟩ := prepare_eq_ok h.slots
  rw [h.config, Feature.compileAll, mapM_eq_ok_iff, Extractor.features, pipelines,
    List.forall₂_map_left_iff, List.forall₂_map_right_iff, List.forall₂_same]
  intro slot hslot
  obtain ⟨f, -, hof⟩ := exists_of_mem_forall₂ hslots hslot
  exact (Slot.setUpAs_of_ofFeature hof).2.1

/-- A feature that an extractor is set up with is denoted by its own text. -/
theorem IsSetUp.parse_resolveAll_text (h : x.IsSetUp c features config) (hf : f ∈ features)
    (htext : (Feature.parse text >>= c.resolveAll) = .ok f) :
    (Feature.parse f.text >>= c.resolveAll) = .ok f := by
  obtain ⟨g, hparse, hg⟩ := bind_eq_ok_iff.1 htext
  obtain ⟨slot, -, hof⟩ := exists_of_mem_forall₂ (prepare_eq_ok h.slots).2.flip hf
  obtain ⟨kept, t, hkept, -⟩ := Slot.ofFeature_eq_ok (Feature.lookedUp_of_parse hparse hg) hof
  exact Feature.parse_resolveAll_text hparse hg hkept

/-- The texts of the features of an extractor that was opened with texts denote these features,
which have the extractor's pipelines, and they open an extractor as the first texts do. -/
theorem ofTexts_texts {R : Responder interface} {s : R.State}
    (h : ((ofTexts c texts config).run R s).value = .ok x) :
    x.catalog = c ∧ x.config = config ∧
      (∀ f ∈ x.features, (Feature.parse f.text >>= x.catalog.resolveAll) = .ok f) ∧
      Feature.compileAll x.features x.config.locals = .ok x.pipelines ∧
      ofTexts x.catalog (x.features.map Feature.text) x.config = ofTexts c texts config := by
  obtain ⟨features, hfeatures, hx⟩ := exists_isSetUp_of_ofTexts h
  have hdenoted : ∀ f ∈ features, ∃ text, (Feature.parse text >>= c.resolveAll) = .ok f := by
    intro f hf
    obtain ⟨text, -, htext⟩ := exists_of_mem_forall₂ (forall₂_of_mapM hfeatures) hf
    exact ⟨text, htext⟩
  have hsame : x.features = features := by
    refine hx.features_eq fun f hf => ?_
    obtain ⟨text, htext⟩ := hdenoted f hf
    obtain ⟨g, hparse, hg⟩ := bind_eq_ok_iff.1 htext
    exact Feature.lookedUp_of_parse hparse hg
  have hagain : ∀ f ∈ features, (Feature.parse f.text >>= c.resolveAll) = .ok f := by
    intro f hf
    obtain ⟨text, htext⟩ := hdenoted f hf
    exact hx.parse_resolveAll_text hf htext
  have hopening : ofTexts c (features.map Feature.text) config = ofTexts c texts config := by
    have htexts : ((features.map Feature.text).mapM fun text =>
        Feature.parse text >>= c.resolveAll) = .ok features := by
      rw [mapM_eq_ok_iff, List.forall₂_map_left_iff, List.forall₂_same]
      exact hagain
    rw [ofTexts, htexts, ofTexts, hfeatures]
  have hpipelines := hx.compileAll_features
  rw [hsame] at hpipelines ⊢
  rw [hx.catalog]
  refine ⟨rfl, hx.config, hagain, hpipelines, ?_⟩
  rw [hx.config]
  exact hopening

/-- The text of the feature is another one than the extractor was opened with. -/
theorem ofTexts_texts_spaced :
    (Meters.openingSpaced.run Accounted.engine {}).value = .ok Meters.opened ∧
      Meters.opened.features = [Meters.top] ∧ Meters.top.text = Meters.text ∧
      (Feature.parse Meters.text >>= Meters.catalog.resolveAll) = .ok Meters.top ∧
      Feature.compileAll [Meters.top] Meters.settings.locals = .ok ["Top [Pre]"] ∧
      Meters.openingText = Meters.openingSpaced := by
  have hopened : (Meters.openingSpaced.run Accounted.engine {}).value = .ok Meters.opened := by cbv
  have htext : Meters.top.text = Meters.text := by cbv
  obtain ⟨-, -, hfeatures, hpipelines, hopening⟩ := ofTexts_texts hopened
  have htop := hfeatures Meters.top List.mem_cons_self
  rw [htext] at htop
  have htexts : Meters.opened.features.map Feature.text = [Meters.text] := congrArg ([·]) htext
  rw [htexts] at hopening
  exact ⟨hopened, rfl, htext, htop, hpipelines, hopening⟩

end Extractor

end AudioFeatures
