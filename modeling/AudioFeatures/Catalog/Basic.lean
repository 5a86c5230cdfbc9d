import AudioFeatures.Error
import AudioFeatures.Feature.Basic

/-! # Catalogs

A catalog holds the transforms of an engine by name, and for each format the formats that it can be
converted into. A transform with several input formats has an entry for each of them, under its
name and the format in parentheses.
-/

namespace AudioFeatures

structure Catalog where
  transforms : Dict Transform
  /-- For each input the outputs, in order of first appearance. -/
  converters : Dict (List String)
  deriving DecidableEq

namespace Catalog

/-- What the first stage of every feature takes. -/
def rawFormat : String := "Raw<short>"

def addConverter (converters : Dict (List String)) (pair : String × String) :
    Dict (List String) :=
  let outputs := (converters.get? pair.1).getD []
  if outputs.contains pair.2 then converters else converters.insert pair.1 (outputs ++ [pair.2])

/-- Of entries with one name the last counts. -/
def ofParts (transforms : List Transform) (converters : List (String × String)) : Catalog where
  transforms := .ofList (transforms.map fun t => (t.name, t))
  converters := converters.foldl addConverter ∅

def get? (c : Catalog) (name : String) : Option Transform := c.transforms.get? name

def size (c : Catalog) : Nat := c.transforms.size

def convertersFrom (c : Catalog) (input : String) : List String :=
  (c.converters.get? input).getD []

/-- The name of the entry for a transform that takes the given format. -/
def overload (name format : String) : String := name ++ " (" ++ format ++ ")"

/-- The entry under the plain name, else the one for the format of the stage before, else the one
for raw samples. -/
def lookup? (c : Catalog) (name : String) (prior : Option String) : Option Transform :=
  (c.get? name).or ((prior.bind fun p => c.get? (overload name p)).or
    (c.get? (overload name rawFormat)))

/-- Describes a stage by its entry. The stage keeps its name, its parameter values and its
condition. -/
def resolve (c : Catalog) (stage : Transform) (prior : Option String) : Except Error Transform :=
  match c.lookup? stage.name prior with
  | some entry => .ok { entry with
      name := stage.name, parameters := stage.parameters, condition := stage.condition }
  | none => .error (.transformNotRegistered stage.name)

/-- Resolves stages one after the other, each with the output format of the one before. -/
def resolveStages (c : Catalog) : Option String → List Transform → Except Error (List Transform)
  | _, [] => .ok []
  | prior, t :: ts => do
    let t ← c.resolve t prior
    return t :: (← c.resolveStages (some t.outputFormat) ts)

def resolveAll (c : Catalog) (f : Feature) : Except Error Feature := do
  let resolved : Feature := ⟨f.name, ← c.resolveStages none f.stages⟩
  match resolved.outputFormat? with
  | some _ => .ok resolved
  | none => .error (.formatNotRecognized f.name)

end Catalog

end AudioFeatures
