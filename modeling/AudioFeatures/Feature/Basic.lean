import AudioFeatures.Transform

/-! # Features

A feature is a named sequence of stages.
-/

namespace AudioFeatures

structure Feature where
  name : String
  stages : List Transform
  deriving DecidableEq

namespace Feature

/-- The format that the last stage produces, if it is known. -/
def outputFormat? (f : Feature) : Option String :=
  match f.stages.getLast? with
  | some t => if t.outputFormat == "" then none else some t.outputFormat
  | none => none

/-- The name and the texts of stages as one text. -/
def join (name : String) (stages : List String) : String :=
  name ++ " [" ++ ", ".intercalate stages ++ "]"

/-- The feature as authors write it. -/
def text (f : Feature) : String := join f.name (f.stages.map Transform.text)

/-- Features have the same pipeline when their names and stages are the same. -/
def samePipeline (f g : Feature) : Bool :=
  f.name == g.name && f.stages.length == g.stages.length &&
    (f.stages.zip g.stages).all fun (s, t) => s.sameStage t

def listingLine (index : Nat) (t : Transform) : String :=
  let values := ", ".intercalate (t.parameters.entries.map fun e => e.1 ++ " = " ++ e.2)
  "\t" ++ toString (index + 1) ++ ". " ++ t.name ++
    (if t.parameters.isEmpty then "" else " (" ++ values ++ ")") ++ "\n"

/-- The stages as a numbered list. -/
def listing (f : Feature) : String :=
  f.name ++ ":\n" ++ String.join (f.stages.mapIdx listingLine)

end Feature

end AudioFeatures
