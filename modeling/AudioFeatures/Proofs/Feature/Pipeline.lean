import AudioFeatures.Feature.Pipeline
import AudioFeatures.Proofs.Fallible
import AudioFeatures.Proofs.Feature.Parsed
import AudioFeatures.Proofs.Feature.RoundTrip

/-! # What a pipeline keeps of a feature

A pipeline is the feature restricted to the stages that take part. Read as a feature it is that
restriction, whatever stands in the parameter values, and as nothing of it is conditional it is its
own pipeline from then on.
-/

namespace AudioFeatures

variable {locals : Condition.Locals} {text pipeline : String} {f : Feature} {t : Transform}
  {ts kept : List Transform}

namespace Transform

/-- Whether a stage takes part; one without a condition always does. -/
def isIncluded (t : Transform) (locals : Condition.Locals) : Except Error Bool :=
  match t.condition with
  | some condition => Condition.holds condition locals
  | none => .ok true

/-- A stage takes part when it has no condition or its condition holds. -/
def TakesPart (locals : Condition.Locals) (t : Transform) : Prop :=
  ∀ condition ∈ t.condition, Condition.holds condition locals = .ok true

instance (locals : Condition.Locals) (t : Transform) : Decidable (t.TakesPart locals) :=
  inferInstanceAs (Decidable (∀ condition ∈ t.condition, _ = _))

theorem isIncluded_eq_true_iff : t.isIncluded locals = .ok true ↔ t.TakesPart locals := by
  rw [isIncluded, TakesPart]
  cases t.condition <;> simp

theorem isIncluded_eq_false_iff : t.isIncluded locals = .ok false ↔
    ∃ condition ∈ t.condition, Condition.holds condition locals = .ok false := by
  rw [isIncluded]
  cases t.condition <;> simp

theorem takesPart_of_isIncluded {b : Bool} (h : t.isIncluded locals = .ok b) :
    b = decide (t.TakesPart locals) := by
  cases b with
  | true => exact (decide_eq_true (isIncluded_eq_true_iff.1 h)).symm
  | false =>
    refine (decide_eq_false fun ht => ?_).symm
    cases h.symm.trans (isIncluded_eq_true_iff.2 ht)

theorem isIncluded_unresolved (locals : Condition.Locals) (t : Transform) :
    t.unresolved.isIncluded locals = t.isIncluded locals := rfl

end Transform

namespace Feature

/-- The stages that take part. -/
def included (locals : Condition.Locals) : List Transform → Except Error (List Transform)
  | [] => .ok []
  | t :: ts => do
    let b ← t.isIncluded locals
    let rest ← included locals ts
    return if b then t :: rest else rest

theorem addStage_eq (locals : Condition.Locals) (texts : List String) (t : Transform) :
    addStage locals texts t =
      (t.isIncluded locals).map fun b => if b then texts ++ [t.pipelineText] else texts := by
  rw [addStage, Transform.isIncluded]
  cases t.condition with
  | none => rfl
  | some condition =>
    dsimp only
    cases Condition.holds condition locals with
    | error e => rfl
    | ok b => cases b <;> rfl

/-- The loop over the stages collects the texts of those that take part. -/
theorem foldlM_addStage (locals : Condition.Locals) (ts : List Transform) (texts : List String) :
    ts.foldlM (addStage locals) texts =
      (included locals ts).map fun kept => texts ++ kept.map Transform.pipelineText := by
  induction ts generalizing texts with
  | nil => simp [included, Except.map, pure, Except.pure]
  | cons t ts ih =>
    rw [List.foldlM_cons, included, addStage_eq]
    cases t.isIncluded locals with
    | error e => rfl
    | ok b =>
      cases b
      · refine (ih texts).trans ?_
        cases included locals ts <;> rfl
      · refine (ih (texts ++ [t.pipelineText])).trans ?_
        cases included locals ts with
        | error e => rfl
        | ok kept => simp [Except.map, ok_bind, pure, Except.pure]

theorem compile_eq (f : Feature) (locals : Condition.Locals) :
    f.compile locals = included locals f.stages >>= fun kept =>
      match kept with
      | [] => .error (.emptyFeature f.name)
      | ts => .ok (join f.name (ts.map Transform.pipelineText)) := by
  rw [compile, foldlM_addStage]
  cases included locals f.stages with
  | error e => rfl
  | ok kept => cases kept <;> rfl

theorem included_cons_eq_ok (h : included locals (t :: ts) = .ok kept) :
    ∃ b rest, t.isIncluded locals = .ok b ∧ included locals ts = .ok rest ∧
      kept = if b then t :: rest else rest := by
  rw [included, bind_eq_ok_iff] at h
  obtain ⟨b, hb, h⟩ := h
  obtain ⟨rest, hrest, h⟩ := bind_eq_ok_iff.1 h
  cases h
  exact ⟨b, rest, hb, hrest, rfl⟩

/-- The stages that take part are those of which the condition holds, in their order. -/
theorem eq_filter_of_included (h : included locals ts = .ok kept) :
    kept = ts.filter fun t => t.TakesPart locals := by
  induction ts generalizing kept with
  | nil =>
    cases h
    rfl
  | cons t ts ih =>
    obtain ⟨b, rest, hb, hrest, rfl⟩ := included_cons_eq_ok h
    rw [List.filter_cons, ih hrest, Transform.takesPart_of_isIncluded hb]

theorem included_sublist (h : included locals ts = .ok kept) : kept.Sublist ts := by
  rw [eq_filter_of_included h]
  exact List.filter_sublist

/-- Stages without conditions all take part. -/
theorem included_unconditional (locals : Condition.Locals) (ts : List Transform) :
    included locals (ts.map Transform.unconditional) = .ok (ts.map Transform.unconditional) := by
  induction ts with
  | nil => rfl
  | cons t ts ih =>
    rw [List.map_cons, included, ih]
    rfl

theorem compile_eq_ok_iff : f.compile locals = .ok pipeline ↔
    ∃ kept, included locals f.stages = .ok kept ∧ kept ≠ [] ∧
      pipeline = join f.name (kept.map Transform.pipelineText) := by
  rw [compile_eq, bind_eq_ok_iff]
  refine exists_congr fun kept => and_congr_right fun _ => ?_
  cases kept with
  | nil => simp
  | cons t ts => simp [eq_comm]

/-- What a catalog knows about stages is not asked for. -/
theorem included_unresolved (locals : Condition.Locals) (ts : List Transform) :
    included locals (ts.map Transform.unresolved) =
      (included locals ts).map (List.map Transform.unresolved) := by
  induction ts with
  | nil => rfl
  | cons t ts ih =>
    rw [List.map_cons, included, included, ih, Transform.isIncluded_unresolved]
    cases t.isIncluded locals with
    | error e => rfl
    | ok b => cases included locals ts <;> cases b <;> rfl

theorem compile_unresolved (locals : Condition.Locals) (f : Feature) :
    f.unresolved.compile locals = f.compile locals := by
  rw [compile_eq, compile_eq, unresolved, included_unresolved]
  cases included locals f.stages with
  | error e => rfl
  | ok kept =>
    cases kept with
    | nil => rfl
    | cons t ts =>
      show Except.ok (join f.name _) = Except.ok (join f.name _)
      rw [List.map_map]
      rfl

theorem exists_included_of_compile (h : f.compile locals = .ok pipeline) :
    ∃ kept t, included locals f.stages = .ok (kept ++ [t]) ∧
      pipeline = join f.name ((kept ++ [t]).map Transform.pipelineText) := by
  obtain ⟨ts, hts, hne, hjoin⟩ := compile_eq_ok_iff.1 h
  obtain rfl | ⟨kept, t, rfl⟩ := List.eq_nil_or_concat ts
  · exact absurd rfl hne
  rw [List.concat_eq_append] at hts hjoin
  exact ⟨kept, t, hts, hjoin⟩

/-- A pipeline is read as the stages it was made of, without their conditions. -/
theorem parse_pipeline {name : String} (hn : Text.IsName name.toList) (hne : kept ≠ [])
    (h : ∀ t ∈ kept, t.WellNamed) :
    parse (join name (kept.map Transform.pipelineText)) =
      .ok ⟨name, kept.map fun t => t.unconditional.unresolved⟩ := by
  have hwell : ∀ t ∈ kept.map Transform.unconditional, t.WellFormed := by
    simpa using fun t ht => (h t ht).unconditional
  have hparse := parse_join hn (by simpa using hne) hwell
  simpa [Function.comp_def, Transform.text_unconditional] using hparse

/-- The stages that take part, none of which is conditional any more. -/
def restrict (f : Feature) (locals : Condition.Locals) : Feature :=
  ⟨f.name, (f.stages.filter fun t => t.TakesPart locals).map Transform.unconditional⟩

/-- A restriction has one pipeline under all variables, that of the feature. -/
theorem compile_restrict (h : f.compile locals = .ok pipeline) (other : Condition.Locals) :
    (f.restrict locals).compile other = .ok pipeline := by
  obtain ⟨kept, hkept, hne, rfl⟩ := compile_eq_ok_iff.1 h
  rw [restrict, ← eq_filter_of_included hkept]
  refine compile_eq_ok_iff.2 ⟨_, included_unconditional other kept, by simpa using hne, ?_⟩
  rw [List.map_map]
  rfl

/-- The pipeline of a feature that was read is read as its restriction to the stages that take part,
and it is the pipeline of this restriction under any variables. -/
theorem parse_compile (h : parse text = .ok f) (hcompile : f.compile locals = .ok pipeline) :
    parse pipeline = .ok (f.restrict locals) ∧
      ∀ other, (f.restrict locals).compile other = .ok pipeline := by
  refine ⟨?_, compile_restrict hcompile⟩
  obtain ⟨hname, -, hstages⟩ := wellNamed_parse h
  obtain ⟨kept, hkept, hne, rfl⟩ := compile_eq_ok_iff.1 hcompile
  have hmem : ∀ t ∈ kept, t ∈ f.stages := fun t ht => (included_sublist hkept).subset ht
  -- nothing is known of these stages that their text does not say
  have hread : (kept.map fun t => t.unconditional.unresolved) =
      kept.map Transform.unconditional :=
    List.map_congr_left fun t ht =>
      congrArg Transform.unconditional (isRead_of_parse h t (hmem t ht)).unresolved
  rw [parse_pipeline hname hne fun t ht => hstages t (hmem t ht), hread, restrict,
    eq_filter_of_included hkept]

end Feature

/-! ## A stage that is left out, among values with delimiters -/

namespace Mix

def gain : Transform where
  name := "Gain"
  parameters := ⟨[("at", "[1]\x7b(2"), ("to", "\x7dx[")], by decide⟩

def level : Transform where
  name := "Level"
  parameters := ⟨[("of", "]")], by decide⟩

def written : String :=
  "Mix[Gain(at=[1]\x7b(2,to=\x7dx[)\x7bchannels>1\x7d,Level(of=])\x7bchannels<2\x7d,Energy]"

/-- What the text is read as. -/
def read : Feature := ⟨"Mix", [{ gain with condition := some "channels>1" },
  { level with condition := some "channels<2" }, { name := "Energy" }]⟩

def stereo : Condition.Locals := ⟨[("channels", .int 2)], by decide⟩

def compiled : String := "Mix [Gain(at=[1]\x7b(2, to=\x7dx[), Energy]"

/-- What the pipeline is read as. -/
def restricted : Feature := ⟨"Mix", [gain, { name := "Energy" }]⟩

end Mix

theorem Feature.parse_compile_delimiters :
    parse Mix.written = .ok Mix.read ∧ Mix.read.compile Mix.stereo = .ok Mix.compiled ∧
      parse Mix.compiled = .ok Mix.restricted ∧
      Mix.restricted.compile ∅ = .ok Mix.compiled := by
  have hparse : parse Mix.written = .ok Mix.read := by cbv
  have hcompile : Mix.read.compile Mix.stereo = .ok Mix.compiled := by cbv
  have hrestrict : Mix.read.restrict Mix.stereo = Mix.restricted := by cbv
  obtain ⟨hread, hagain⟩ := parse_compile hparse hcompile
  rw [hrestrict] at hread hagain
  exact ⟨hparse, hcompile, hread, hagain ∅⟩

end AudioFeatures
