import AudioFeatures.Catalog.Basic
import AudioFeatures.Json.Reader
import AudioFeatures.Json.Writer

/-! # Catalogs as JSON

Descriptions of transforms and features are records; only their names must be given. A condition
that is absent is left out, one that is empty is not.
-/

namespace AudioFeatures

namespace Parameter

def toJson (p : Parameter) : Json := .ofMembers [
    ("name", .text p.name), ("description", .text p.description),
    ("default_value", .text p.defaultValue)]

def ofJson? (j : Json) : Option Parameter := do
  match ← j.record? ["name", "description", "default_value"] with
  | [name, description, defaultValue] =>
    let name ← Json.required Json.toText? name
    let description ← Json.required Json.toText? description
    let defaultValue ← Json.required Json.toText? defaultValue
    return ⟨name, description, defaultValue⟩
  | _ => none

end Parameter

namespace Transform

def toJson (t : Transform) : Json := .ofMembers <| [
    ("name", .text t.name), ("description", .text t.description),
    ("supported_parameters", .ofDict Parameter.toJson t.supportedParameters),
    ("parameters", .ofDict Json.text t.parameters),
    ("input_format", .text t.inputFormat), ("output_format", .text t.outputFormat)] ++
  match t.condition with
  | some condition => [("condition", .text condition)]
  | none => []

def fields : List String := [
    "name", "description", "supported_parameters", "parameters", "input_format", "output_format",
    "condition"]

def ofJson? (j : Json) : Option Transform := do
  match ← j.record? fields with
  | [name, description, supportedParameters, parameters, inputFormat, outputFormat, condition] =>
    let name ← Json.required Json.toText? name
    let description ← Json.withDefault "" Json.toText? description
    let supportedParameters ←
      Json.withDefault ∅ (Json.toDict? Parameter.ofJson?) supportedParameters
    let parameters ← Json.withDefault ∅ (Json.toDict? Json.toText?) parameters
    let inputFormat ← Json.withDefault "" Json.toText? inputFormat
    let outputFormat ← Json.withDefault "" Json.toText? outputFormat
    let condition ← Json.withDefault none (Json.toOption? Json.toText?) condition
    return {
      name, description, supportedParameters, parameters, inputFormat, outputFormat, condition }
  | _ => none

end Transform

namespace Feature

def toJson (f : Feature) : Json := .ofMembers [
    ("name", .text f.name), ("transforms", .array (f.stages.map Transform.toJson))]

def ofJson? (j : Json) : Option Feature := do
  match ← j.record? ["name", "transforms"] with
  | [name, stages] =>
    let name ← Json.required Json.toText? name
    let stages ← Json.required (Json.toList? Transform.ofJson?) stages
    return ⟨name, stages⟩
  | _ => none

end Feature

namespace Catalog

def toJson (c : Catalog) : Json := .ofMembers [
    ("transforms", .ofDict Transform.toJson c.transforms),
    ("format_converters", .ofDict (fun outputs => .array (outputs.map Json.text)) c.converters)]

/-- The catalog as a document for people to read. -/
def jsonText (c : Catalog) : String := c.toJson.pretty

end Catalog

end AudioFeatures
