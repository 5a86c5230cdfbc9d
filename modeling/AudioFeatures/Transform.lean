import AudioFeatures.Dict
import AudioFeatures.Text.Utf8

/-! # Transforms

A transform is described by the formats it maps between and the parameters it supports. As the
stage of a feature it also has parameter values and may have a condition; a stage that names a
transform but was not looked up yet has no formats.
-/

namespace AudioFeatures

structure Parameter where
  name : String
  description : String
  defaultValue : String
  deriving DecidableEq

structure Transform where
  name : String
  description : String := ""
  supportedParameters : Dict Parameter := ∅
  /-- The values that the author of a feature sets. -/
  parameters : Dict String := ∅
  inputFormat : String := ""
  outputFormat : String := ""
  /-- The stage is left out where the condition is false. -/
  condition : Option String := none
  deriving DecidableEq

namespace Parameter

def text (p : Parameter) : String :=
  s!"Name: {p.name}\nDescription: {p.description}\nDefault: {p.defaultValue}"

/-- The text as a block, every line of it behind a tabulator. -/
def block (p : Parameter) : String :=
  let lines := p.text.toList.flatMap fun c => if c == '\n' then ['\n', '\t'] else [c]
  "\t" ++ String.ofList lines ++ "\n\n"

end Parameter

namespace Transform

def isResolved (t : Transform) : Bool := t.outputFormat != ""

/-- The stage as the engine reads it. -/
def pipelineText (t : Transform) : String :=
  if t.parameters.isEmpty then t.name
  else
    let settings := t.parameters.entries.map fun e => e.1 ++ "=" ++ e.2
    t.name ++ "(" ++ ", ".intercalate settings ++ ")"

/-- The stage as authors write it. -/
def text (t : Transform) : String :=
  match t.condition with
  | some condition => t.pipelineText ++ "\x7b" ++ condition ++ "\x7d"
  | none => t.pipelineText

/-- Stages are the same when their names and parameter values are. -/
def sameStage (s t : Transform) : Bool := s.name == t.name && s.parameters == t.parameters

def header (t : Transform) : String :=
  let line := String.ofList (List.replicate (Text.Utf8.size t.name) '=')
  "\n" ++ t.name ++ "\n" ++ line ++ "\n\n" ++ t.description ++ "\n\n"

/-- The title and its text, unless there is no text. -/
def part (title text : String) : String := if text == "" then "" else title ++ "\n" ++ text

def supportedParametersText (t : Transform) : String :=
  String.join (t.supportedParameters.values.map Parameter.block)

def parametersText (t : Transform) : String :=
  String.join (t.parameters.entries.map fun e => "\t" ++ e.1 ++ " = " ++ e.2 ++ "\n\n")

/-- The documentation in Markdown. -/
def markdown (t : Transform) : String :=
  t.header ++ "###Input format\n" ++ t.inputFormat ++ "\n###Output format\n" ++ t.outputFormat ++
    "\n" ++ part "###Supported parameters" t.supportedParametersText ++
    part "###Parameters" t.parametersText

/-- The documentation as plain text. -/
def plain (t : Transform) : String :=
  t.header ++ "Input format: " ++ t.inputFormat ++ "\nOutput format: " ++ t.outputFormat ++ "\n" ++
    part "Supported parameters:" t.supportedParametersText ++ part "Parameters:" t.parametersText

end Transform

end AudioFeatures
