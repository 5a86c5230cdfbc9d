import AudioFeatures.Condition.Evaluation
import AudioFeatures.Error
import AudioFeatures.Feature.Basic

/-! # Pipelines

The pipeline of a feature is the text that the engine is set up with: the stages whose conditions
hold, without the conditions.
-/

namespace AudioFeatures

namespace Condition

def value (condition : String) (locals : Locals) : Except Error Value :=
  (evaluate condition locals).mapError (.condition condition)

def holds (condition : String) (locals : Locals) : Except Error Bool :=
  (value condition locals).map Value.truthy

end Condition

namespace Feature

/-- Adds the text of a stage, unless its condition is false. -/
def addStage (locals : Condition.Locals) (texts : List String) (t : Transform) :
    Except Error (List String) := do
  if let some condition := t.condition then
    if !(← Condition.holds condition locals) then return texts
  return texts ++ [t.pipelineText]

/-- The pipeline text. -/
def compile (f : Feature) (locals : Condition.Locals) : Except Error String := do
  match ← f.stages.foldlM (addStage locals) [] with
  | [] => .error (.emptyFeature f.name)
  | texts => .ok (join f.name texts)

def compileAll (fs : List Feature) (locals : Condition.Locals) : Except Error (List String) :=
  fs.mapM fun f => f.compile locals

end Feature

end AudioFeatures
