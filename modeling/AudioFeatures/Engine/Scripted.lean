import AudioFeatures.Dict
import AudioFeatures.Engine.Request
import AudioFeatures.Text.Blank

/-! # Scripted engines

An engine whose replies are written down in a script. It computes nothing, and it can hand over
null pointers, lengths that do not fit and texts that are none.
-/

namespace AudioFeatures.Engine

namespace Scripted

/-- A list of parallel columns, of which some may be null pointers. The length it reports never
exceeds the real one, unless there is no list at all. -/
structure Rows (α : Type) where
  rows : Option (List α) := none
  length : Option Int := none

structure TransformScript where
  name : ForeignText := none
  description : ForeignText := none
  input : ForeignText := none
  output : ForeignText := none
  /-- Name, description and default value of each parameter. -/
  parameters : Rows (ForeignText × ForeignText × ForeignText) := {}
  nullNames : Bool := false
  nullDescriptions : Bool := false
  nullDefaults : Bool := false

structure Script where
  transforms : Rows TransformScript := {}
  converters : Rows (ForeignText × ForeignText) := {}
  nullConverterOutputs : Bool := false
  timings : Rows (ForeignText × UInt32) := {}
  nullTimingValues : Bool := false
  nullSetup : Bool := false
  /-- The names under which results are reported, where they are not the features' own. -/
  rename : Dict ForeignText := ∅
  /-- The values of results; a feature that is not listed has an empty one. -/
  outputs : Dict (Option Bytes) := ∅
  lengths : Dict Int := ∅
  status : Int32 := 0
  nullNames : Bool := false
  nullValues : Bool := false
  nullLengths : Bool := false

structure Settings where
  maxThreads : Int32 := 1
  useSimd : Bool := true
  cpuCacheSize : UInt64 := 262144
  chunkSize : UInt64 := 64

structure State where
  script : Script := {}
  settings : Settings := {}
  /-- The feature names of every configuration that was set up. -/
  configurations : List (List String) := []

/-- The length reported for `real` items, or for a null pointer. -/
def reported (real : Option Nat) (length : Option Int) : Int32 :=
  Int32.ofInt <| match real, length with
    | some n, some m => min m n
    | some n, none => n
    | none, m => m.getD 0

namespace Rows

variable {α β : Type}

def reportedLength (r : Rows α) : Int32 := reported (r.rows.map List.length) r.length

def column (r : Rows α) (null : Bool) (f : α → β) : Option (List β) :=
  if null then none else r.rows.map fun rows => rows.map f

end Rows

/-- The name of a feature: the text of its pipeline up to the bracket. -/
def featureName (pipeline : String) : String :=
  String.ofList (Text.trim (pipeline.toList.takeWhile (· != '[')))

/-- The names in order of first appearance. -/
def distinct (names : List String) : List String :=
  names.foldl (fun seen name => if seen.contains name then seen else seen ++ [name]) []

namespace Script

/-- The details of the first transform of the given name. -/
def details (s : Script) (name : String) : Details :=
  let bytes := Text.Utf8.encode name
  match (s.transforms.rows.getD []).find? fun t => t.name.getD [] == bytes with
  | none => ⟨none, none, none, none, none, none, 0⟩
  | some t => {
      description := t.description
      inputFormat := t.input
      outputFormat := t.output
      parameterNames := t.parameters.column t.nullNames (·.1)
      parameterDescriptions := t.parameters.column t.nullDescriptions (·.2.1)
      parameterDefaults := t.parameters.column t.nullDefaults (·.2.2)
      parameterCount := t.parameters.reportedLength }

def batch (s : Script) (features : List String) (featureCount : Int32) : Batch :=
  let value name := (s.outputs.get? name).getD (some [])
  let name feature := (s.rename.get? feature).getD (some (Text.Utf8.encode feature))
  let length name := reported ((value name).map List.length) (s.lengths.get? name)
  { names := if s.nullNames then none else some (features.map name)
    values := if s.nullValues then none else some (features.map value)
    lengths := if s.nullLengths then none else some (features.map length)
    count := featureCount }

end Script

def reply : (q : Request) → State → q.Reply × State
  | .queryTransforms, s =>
    let ts := s.script.transforms
    (⟨ts.column false (·.name), ts.reportedLength⟩, s)
  | .queryDetails name, s => (s.script.details name, s)
  | .queryConverters, s =>
    let cs := s.script.converters
    (⟨cs.column false (·.1), cs.column s.script.nullConverterOutputs (·.2), cs.reportedLength⟩, s)
  | .setup pipelines _ _, s =>
    if s.script.nullSetup then (none, s)
    else
      let features := distinct (pipelines.map featureName)
      (some ⟨s.configurations.length⟩,
        { s with configurations := s.configurations ++ [features] })
  | .extract c _ featureCount, s =>
    let features := s.configurations.getD c.id []
    (⟨s.script.status, s.script.batch features featureCount, []⟩, s)
  | .queryTimes _, s =>
    let ts := s.script.timings
    (⟨ts.column false (·.1), ts.column s.script.nullTimingValues (·.2), ts.reportedLength⟩, s)
  | .maxThreads, s => (s.settings.maxThreads, s)
  | .setMaxThreads n, s => ((), { s with settings.maxThreads := n })
  | .useSimd, s => (s.settings.useSimd, s)
  | .setUseSimd b, s => ((), { s with settings.useSimd := b })
  | .cpuCacheSize, s => (s.settings.cpuCacheSize, s)
  | .setCpuCacheSize n, s => ((), { s with settings.cpuCacheSize := n })
  | .chunkSize, s => (s.settings.chunkSize, s)
  | .setChunkSize n, s => ((), { s with settings.chunkSize := n })
  | .releaseTransforms _, s | .releaseDetails _, s | .releaseConverters _, s
  | .releaseBatch _, s | .releaseTimes _, s | .reportGraph .., s | .destroy _, s => ((), s)

/-- The engine that follows the script in its state. -/
@[reducible] def engine : Responder interface := ⟨State, reply⟩

end Scripted

end AudioFeatures.Engine
