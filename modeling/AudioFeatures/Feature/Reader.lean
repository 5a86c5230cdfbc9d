import AudioFeatures.Error
import AudioFeatures.Feature.Basic
import AudioFeatures.Text.Blank
import AudioFeatures.Text.Word

/-! # Reading features

A feature is written as its name and its stages in brackets. A stage is a name, which parameter
values in parentheses and a condition in braces may follow.
-/

namespace AudioFeatures.Feature

namespace Reader

/-- The pieces of a text between commas. -/
def pieces : List Char → List (List Char)
  | [] => [[]]
  | c :: s =>
    if c == ',' then [] :: pieces s
    else
      match pieces s with
      | p :: ps => (c :: p) :: ps
      | [] => [[c]]

/-- One parameter; the value starts behind the first equals sign. -/
def parameter (text : String) (piece : List Char) : Except FeatureFault (String × String) :=
  if !piece.contains '=' then .error (.missingValue (String.ofList piece) text)
  else
    match Text.trim (piece.takeWhile (· != '=')) with
    | [] => .error (.missingName text)
    | name =>
      let value := (piece.dropWhile (· != '=')).drop 1
      .ok (String.ofList name, String.ofList (Text.trim value))

/-- The parameters between parentheses. Blank pieces say nothing. -/
def parameters (text : String) (s : List Char) : Except FeatureFault (Dict String) :=
  let ps := ((pieces s).map Text.trim).filter fun p => !p.isEmpty
  (ps.mapM (parameter text)).map Dict.ofList

/-- The text between a pair of delimiters at the front, and what follows it. -/
def enclosed? (opening closing : Char) : List Char → Option (List Char × List Char)
  | [] => none
  | c :: s =>
    if c == opening && s.contains closing then
      some (s.takeWhile (· != closing), (s.dropWhile (· != closing)).drop 1)
    else none

/-- The same, for delimiters with something between them. -/
def enclosedSome? (opening closing : Char) (s : List Char) : Option (List Char × List Char) :=
  (enclosed? opening closing s).filter fun r => !r.1.isEmpty

/-- The parts of a stage at the front of a text. -/
structure StageParts where
  name : List Char
  parameters : Option (List Char)
  condition : Option (List Char)
  rest : List Char

def stageParts? (s : List Char) : Option StageParts :=
  let s := Text.trimStart s
  match s.takeWhile Text.isWord with
  | [] => none
  | name =>
    let s := Text.trimStart (s.dropWhile Text.isWord)
    let (parameters, s) := match enclosed? '(' ')' s with
      | some (p, r) => (some p, r)
      | none => (none, s)
    let s := Text.trimStart s
    let (condition, s) := match enclosedSome? '\x7b' '\x7d' s with
      | some (c, r) => (some c, r)
      | none => (none, s)
    some ⟨name, parameters, condition, Text.trimStart s⟩

def stage (text : String) (p : StageParts) : Except FeatureFault Transform := do
  let parameters ← match p.parameters with
    | some s => parameters text s
    | none => .ok ∅
  let condition := p.condition.map fun s => String.ofList (Text.trim s)
  return { name := String.ofList p.name, parameters, condition }

/-- Stages up to the end of the text. -/
def stages (text : String) : Nat → List Char → Except FeatureFault (List Transform)
  | 0, s => .error (.stage (String.ofList (Text.trim s)) text)
  | fuel + 1, s =>
    match stageParts? s with
    | none => .error (.stage (String.ofList (Text.trim s)) text)
    | some p => do
      let t ← stage text p
      match p.rest with
      | [] => return [t]
      | ',' :: rest => return t :: (← stages text fuel rest)
      | rest => .error (.separator (String.ofList rest) text)

/-- The name in front of the brackets and the text between them. -/
def split? (s : List Char) : Option (List Char × List Char) :=
  let s := Text.trim s
  match s.takeWhile Text.isWord, Text.trimStart (s.dropWhile Text.isWord) with
  | [], _ => none
  | name, '[' :: rest =>
    if rest.getLast? == some ']' then some (name, rest.dropLast) else none
  | _, _ => none

end Reader

/-- The feature that a text denotes; its stages are not looked up. -/
def parse (text : String) : Except Error Feature :=
  match Reader.split? text.toList with
  | none => .error (.featureSyntax (.shape text))
  | some (name, body) =>
    match Reader.stages text (body.length + 1) body with
    | .error fault => .error (.featureSyntax fault)
    | .ok stages => .ok ⟨String.ofList name, stages⟩

end AudioFeatures.Feature
