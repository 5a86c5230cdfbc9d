import AudioFeatures.Catalog.Basic
import AudioFeatures.Engine.Request

/-! # Loading catalogs

A catalog is read from the engine once. Every list is given back as soon as its texts were read,
before anything is made of them.
-/

namespace AudioFeatures

namespace Engine

/-- The names of all transforms. -/
def transformNames : Talk (Except Error (List String)) :=
  bracket .queryTransforms .releaseTransforms fun l => return l.read

def transformDetails (name : String) : Talk (Except Error Details.Text) :=
  bracket (.queryDetails name) .releaseDetails fun d => return d.read

def formatConverters : Talk (Except Error (List (String × String))) :=
  bracket .queryConverters .releaseConverters fun l => return l.read

end Engine

namespace Catalog

open Engine

/-- The entry for a transform; of parameters with one name the last counts. -/
def entry (name : String) (d : Details.Text) : Transform where
  name := name
  description := d.description
  supportedParameters := .ofList (d.parameters.map fun (p, description, default) =>
    (p, ⟨p, description, default⟩))
  inputFormat := d.inputFormat
  outputFormat := d.outputFormat

def loadEntries : List String → Talk (Except Error (List Transform))
  | [] => return .ok []
  | name :: names => do
    match ForeignText.check name with
    | .error e => return .error e
    | .ok name =>
      match ← transformDetails name with
      | .error e => return .error e
      | .ok d => return (← loadEntries names).map fun ts => entry name d :: ts

def load : Talk (Except Error Catalog) := do
  match ← transformNames with
  | .error e => return .error e
  | .ok names =>
    match ← loadEntries names with
    | .error e => return .error e
    | .ok ts => return (← formatConverters).map (ofParts ts)

/-- The catalog of a slot, which is loaded if the slot is empty. A failed load leaves it empty. -/
def getOrLoad (slot : Option Catalog) : Talk (Except Error Catalog × Option Catalog) := do
  match slot with
  | some c => return (.ok c, slot)
  | none =>
    match ← load with
    | .error e => return (.error e, none)
    | .ok c => return (.ok c, some c)

end Catalog

end AudioFeatures
