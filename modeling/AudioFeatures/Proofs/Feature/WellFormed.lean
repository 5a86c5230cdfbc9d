import AudioFeatures.Feature.Basic
import AudioFeatures.Proofs.Text.Trim

/-! # Well-formed features

The features whose text can be read back: names are words, and a parameter value or a condition
holds none of the characters that end it. What a catalog adds to a stage is not part of the text.
-/

namespace AudioFeatures

namespace Text

/-- A non-empty run of word characters. -/
def IsName (s : List Char) : Prop := s ≠ [] ∧ ∀ c ∈ s, isWord c = true

instance (s : List Char) : Decidable (IsName s) :=
  decidable_of_iff (s ≠ [] ∧ s.all isWord = true) (by simp [IsName])

theorem IsName.stops_isBlank {s t : List Char} (h : IsName s) : Stops isBlank (s ++ t) := by
  obtain ⟨hne, hw⟩ := h
  cases s with
  | nil => exact absurd rfl hne
  | cons c s => simpa using not_isBlank_of_isWord (hw c List.mem_cons_self)

theorem IsName.isTrimmed {s : List Char} (h : IsName s) : IsTrimmed s := by
  refine isTrimmed_of_stops (by simpa using h.stops_isBlank (t := [])) fun c hc => ?_
  exact not_isBlank_of_isWord (h.2 c (List.mem_reverse.1 (List.mem_of_mem_head? hc)))

end Text

open Text

/-- A parameter name that ends at the equals sign, with a value that ends at a comma or a closing
parenthesis. -/
def IsSetting (name value : List Char) : Prop :=
  (name ≠ [] ∧ IsTrimmed name ∧ ',' ∉ name ∧ ')' ∉ name ∧ '=' ∉ name) ∧
    IsTrimmed value ∧ ',' ∉ value ∧ ')' ∉ value

instance (name value : List Char) : Decidable (IsSetting name value) :=
  inferInstanceAs (Decidable ((_ ∧ _ ∧ _ ∧ _ ∧ _) ∧ _ ∧ _ ∧ _))

/-- A condition that ends at the closing brace. -/
def IsConditionText (s : List Char) : Prop := s ≠ [] ∧ IsTrimmed s ∧ '\x7d' ∉ s

instance (s : List Char) : Decidable (IsConditionText s) := inferInstanceAs (Decidable (_ ∧ _ ∧ _))

namespace Transform

/-- The name and the parameter values are well formed. -/
def WellNamed (t : Transform) : Prop :=
  IsName t.name.toList ∧ ∀ e ∈ t.parameters.entries, IsSetting e.1.toList e.2.toList

instance (t : Transform) : Decidable t.WellNamed := inferInstanceAs (Decidable (_ ∧ _))

def WellFormed (t : Transform) : Prop :=
  t.WellNamed ∧ ∀ c ∈ t.condition, IsConditionText c.toList

instance (t : Transform) : Decidable t.WellFormed := inferInstanceAs (Decidable (_ ∧ _))

/-- The stage without what a catalog knows about it. -/
def unresolved (t : Transform) : Transform where
  name := t.name
  parameters := t.parameters
  condition := t.condition

/-- The stage as it takes part in a pipeline. -/
def unconditional (t : Transform) : Transform := { t with condition := none }

theorem WellNamed.unconditional {t : Transform} (h : t.WellNamed) : t.unconditional.WellFormed :=
  ⟨h, by simp [Transform.unconditional]⟩

theorem text_unconditional (t : Transform) : t.unconditional.text = t.pipelineText := rfl

end Transform

namespace Feature

def WellFormed (f : Feature) : Prop :=
  IsName f.name.toList ∧ f.stages ≠ [] ∧ ∀ t ∈ f.stages, t.WellFormed

instance (f : Feature) : Decidable f.WellFormed := inferInstanceAs (Decidable (_ ∧ _ ∧ _))

/-- The feature without what a catalog knows about its stages. -/
def unresolved (f : Feature) : Feature := ⟨f.name, f.stages.map Transform.unresolved⟩

end Feature

end AudioFeatures
