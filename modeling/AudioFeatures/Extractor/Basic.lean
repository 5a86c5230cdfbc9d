import AudioFeatures.Catalog.Basic
import AudioFeatures.Config
import AudioFeatures.Engine.Request
import AudioFeatures.Feature.Pipeline
import AudioFeatures.Feature.Reader

/-! # Extractors

An extractor is one set of pipelines that an engine was set up with. For each feature it knows the
format of the stage that its pipeline ends with.
-/

namespace AudioFeatures

open Engine

namespace Tunables

/-- Sets what is given. -/
def apply (t : Tunables) : Talk Unit := do
  if let some n := t.maxThreads then ask (.setMaxThreads n)
  if let some b := t.useSimd then ask (.setUseSimd b)
  if let some n := t.cpuCacheSize then ask (.setCpuCacheSize n)
  if let some n := t.chunkSize then ask (.setChunkSize n)

def current : Talk Tunables := do
  let maxThreads ← ask .maxThreads
  let useSimd ← ask .useSimd
  let cpuCacheSize ← ask .cpuCacheSize
  let chunkSize ← ask .chunkSize
  return ⟨some maxThreads, some useSimd, some cpuCacheSize, some chunkSize⟩

end Tunables

/-- A feature as it was set up. -/
structure Slot where
  feature : Feature
  pipeline : String
  /-- The format of the results. -/
  format : Option String
  deriving DecidableEq

structure Extractor where
  configuration : Configuration
  /-- The number of results of an extraction. -/
  resultCount : Int32
  catalog : Catalog
  config : Config
  slots : List Slot
  buffer : SampleBuffer
  size_buffer : buffer.size = config.bufferSize.toNat

namespace Slot

/-- The stage if it takes part, else the last one before it that does. A stage without a condition
always takes part. -/
def latest (locals : Condition.Locals) (last : Option Transform) (t : Transform) :
    Except Error (Option Transform) := do
  let included ← match t.condition with
    | some condition => Condition.holds condition locals
    | none => .ok true
  return if included then some t else last

/-- The format of the last stage that takes part, or of its entry in the catalog when the stage has
none. -/
def formatOf (f : Feature) (locals : Condition.Locals) (c : Catalog) :
    Except Error (Option String) := do
  match ← f.stages.foldlM (latest locals) none with
  | none => return none
  | some t =>
    if t.outputFormat != "" then return some t.outputFormat
    else
      return match c.get? t.name with
        | some entry => if entry.outputFormat == "" then none else some entry.outputFormat
        | none => none

/-- Looks up the stages unless all of them were looked up, and compiles the pipeline. -/
def ofFeature (f : Feature) (locals : Condition.Locals) (c : Catalog) : Except Error Slot := do
  let f ← if f.stages.all Transform.isResolved then .ok f else c.resolveAll f
  let pipeline ← f.compile locals
  let format ← formatOf f locals c
  return ⟨f, pipeline, format⟩

end Slot

namespace Extractor

/-- The first name that an earlier one repeats. -/
def repeated? (seen : List String) : List String → Option String
  | [] => none
  | name :: names => if seen.contains name then some name else repeated? (name :: seen) names

/-- The slots of features, whose names must differ. -/
def prepare (c : Catalog) (features : List Feature) (config : Config) :
    Except Error (List Slot) :=
  match repeated? [] (features.map (·.name)) with
  | some name => .error (.duplicateFeature name)
  | none => features.mapM fun f => Slot.ofFeature f config.locals c

/-- What the engine is given: the pipelines, the sampling rate and the number of features. -/
def setupArguments (slots : List Slot) (config : Config) :
    Except Error (List String × Int32 × Int32) := do
  let pipelines ← (slots.map (·.pipeline)).mapM ForeignText.check
  if config.samplingRate.toNat < 0x80000000 ∧ slots.length < 0x80000000 then
    return (pipelines, Int32.ofNat config.samplingRate.toNat, Int32.ofNat slots.length)
  else .error (.setupFailed slots.length)

/-- Sets up an engine. The tunables are applied before it is asked. -/
def new (c : Catalog) (features : List Feature) (config : Config) :
    Talk (Except Error Extractor) := do
  match prepare c features config with
  | .error e => return .error e
  | .ok slots =>
    config.tunables.apply
    match setupArguments slots config with
    | .error e => return .error e
    | .ok (pipelines, samplingRate, resultCount) =>
      match ← ask (.setup pipelines config.bufferSize samplingRate) with
      | none => return .error (.setupFailed slots.length)
      | some configuration => return .ok {
          configuration, resultCount, catalog := c, config, slots
          buffer := .silent config.bufferSize.toNat, size_buffer := rfl }

/-- Sets up an engine with features given as texts. -/
def ofTexts (c : Catalog) (texts : List String) (config : Config) :
    Talk (Except Error Extractor) :=
  match texts.mapM fun text => Feature.parse text >>= c.resolveAll with
  | .error e => return .error e
  | .ok features => new c features config

def slot? (x : Extractor) (name : String) : Option Slot :=
  x.slots.find? fun s => s.feature.name == name

def features (x : Extractor) : List Feature := x.slots.map (·.feature)

def pipelines (x : Extractor) : List String := x.slots.map (·.pipeline)

/-- Ends the use of the engine's configuration. -/
def close (x : Extractor) : Talk Unit := ask (.destroy x.configuration)

end Extractor

end AudioFeatures
