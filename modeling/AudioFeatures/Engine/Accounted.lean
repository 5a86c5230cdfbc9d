import AudioFeatures.Engine.Scripted

/-! # Accounted engines

A small engine that works without a library. It keeps account of what it handed over and what it
got back, and it can be made to fail in given places.
-/

namespace AudioFeatures.Engine.Accounted

open Scripted (featureName distinct Settings)

inductive Fault where
  | nullSetup
  | extractionStatus (status : Int32)
  | invalidDescription (transform : String)
  | invalidConverter
  | invalidResultName (feature : String)
  | unknownResultName
  | invalidTimingName
  deriving DecidableEq, Repr

structure Kind where
  name : String
  input : String
  output : String
  /-- Name, description and default value of each parameter. -/
  parameters : List (String × String × String) := []

namespace Kind

/-- The name up to the format in parentheses, and what it is. -/
def description (k : Kind) : String :=
  let rec plain : List Char → List Char
    | ' ' :: '(' :: _ => []
    | c :: s => c :: plain s
    | [] => []
  String.ofList (plain k.name.toList) ++ " transform"

end Kind

def kinds : List Kind := [
    ⟨"Window", "Raw<short>", "Window<float>", [("length", "Window size in samples", "512"),
      ("type", "Window function", "hamming"), ("step", "Distance between windows", "205")]⟩,
    ⟨"RDFT", "Window<float>", "Window<float>", []⟩,
    ⟨"Energy", "Window<float>", "Window<float>", []⟩,
    ⟨"Mean (Window<float>)", "Window<float>", "float", [("types", "Kinds of mean", "arithmetic")]⟩,
    ⟨"Mean (Raw<short>)", "Raw<short>", "float", []⟩,
    ⟨"FilterBank", "Window<float>", "FixedArray<(unsigned long)4, float>",
      [("number", "Number of bands", "4")]⟩,
    ⟨"Lowpass", "Raw<short>", "Raw<short>", [("frequency", "Cutoff frequency", "8000")]⟩,
    ⟨"Preprocessing", "Raw<short>", "", []⟩]

def converters : List (String × String) := [
    ("Raw<short>", "Raw<float>"), ("Window<float>", "Window<short>"),
    ("Window<float>", "Window<double>")]

/-- Times as bits of single precision: a quarter and three quarters of a second. -/
def timings : List (String × UInt32) := [("Window", 0x3e800000), ("RDFT", 0x3f400000)]

structure State where
  /-- Transforms beyond the usual ones. -/
  extraKinds : List Kind := []
  outputs : Dict Bytes := ∅
  faults : List Fault := []
  /-- The files that can be written. -/
  canWrite : String → Bool := fun _ => true
  acquired : Nat := 0
  released : Nat := 0
  /-- The pipelines of every setup. -/
  setups : List (List String) := []
  /-- The feature count of every extraction. -/
  requested : List Int32 := []
  configurations : List (List String) := []
  settings : Settings := {}
  /-- The graphs written, by file. -/
  files : Dict String := ∅

namespace State

def outstanding (s : State) : Nat := s.acquired - s.released

def acquire (s : State) : State := { s with acquired := s.acquired + 1 }

def release (s : State) : State := { s with released := s.released + 1 }

def has (s : State) (f : Fault) : Bool := s.faults.contains f

def allKinds (s : State) : List Kind := kinds ++ s.extraKinds

end State

def foreign (s : String) : ForeignText := some (Text.Utf8.encode s)

/-- Bytes that are no text. -/
def invalid : ForeignText := some [0xff, 0xfe, 0xfd]

/-- The texts, of which the last is none if so wished. -/
def spoilLast (spoil : Bool) (texts : List ForeignText) : List ForeignText :=
  if spoil && !texts.isEmpty then texts.dropLast ++ [invalid] else texts

def details (s : State) (name : String) : Details :=
  match s.allKinds.find? fun k => k.name == name with
  | none => ⟨none, none, none, none, none, none, 0⟩
  | some k => {
      description :=
        if s.has (.invalidDescription k.name) then invalid else foreign k.description
      inputFormat := foreign k.input
      outputFormat := foreign k.output
      parameterNames := some (k.parameters.map fun p => foreign p.1)
      parameterDescriptions := some (k.parameters.map fun p => foreign p.2.1)
      parameterDefaults := some (k.parameters.map fun p => foreign p.2.2)
      parameterCount := Int32.ofNat k.parameters.length }

/-- One result for each feature that was set up, however many are asked for. -/
def batch (s : State) (features : List String) : Batch :=
  let name feature := if s.has (.invalidResultName feature) then invalid else foreign feature
  let names := match s.has .unknownResultName, features.map name with
    | true, _ :: names => foreign "Bogus" :: names
    | _, names => names
  let values := features.map fun feature => (s.outputs.get? feature).getD []
  { names := some names
    values := some (values.map some)
    lengths := some (values.map fun bytes => Int32.ofNat bytes.length)
    count := Int32.ofNat names.length }

def status (s : State) : Int32 :=
  (s.faults.findSome? fun
    | .extractionStatus status => some status
    | _ => none).getD 0

/-- The graph of the features, one line for each. -/
def graph (features : List String) : String :=
  "digraph Extraction \x7b\n" ++
    String.join (features.map fun name => "  \"" ++ name ++ "\";\n") ++ "\x7d\n"

def reply : (q : Request) → State → q.Reply × State
  | .queryTransforms, s =>
    (⟨some (s.allKinds.map fun k => foreign k.name), Int32.ofNat s.allKinds.length⟩, s.acquire)
  | .queryDetails name, s => (details s name, s.acquire)
  | .queryConverters, s =>
    (⟨some (converters.map fun c => foreign c.1),
      some (spoilLast (s.has .invalidConverter) (converters.map fun c => foreign c.2)),
      Int32.ofNat converters.length⟩, s.acquire)
  | .setup pipelines _ _, s =>
    let s := { s with setups := s.setups ++ [pipelines] }
    if s.has .nullSetup then (none, s)
    else
      let features := distinct (pipelines.map featureName)
      (some ⟨s.configurations.length⟩,
        { s.acquire with configurations := s.configurations ++ [features] })
  | .extract c _ featureCount, s =>
    let features := s.configurations.getD c.id []
    (⟨status s, batch s features, []⟩,
      { s.acquire with requested := s.requested ++ [featureCount] })
  | .queryTimes _, s =>
    (⟨some (spoilLast (s.has .invalidTimingName) (timings.map fun t => foreign t.1)),
      some (timings.map (·.2)), Int32.ofNat timings.length⟩, s.acquire)
  | .reportGraph c path, s =>
    let text := graph (s.configurations.getD c.id [])
    ((), if s.canWrite path then { s with files := s.files.insert path text } else s)
  | .releaseTransforms _, s | .releaseDetails _, s | .releaseConverters _, s
  | .releaseBatch _, s | .releaseTimes _, s | .destroy _, s => ((), s.release)
  | .maxThreads, s => (s.settings.maxThreads, s)
  | .setMaxThreads n, s => ((), { s with settings.maxThreads := n })
  | .useSimd, s => (s.settings.useSimd, s)
  | .setUseSimd b, s => ((), { s with settings.useSimd := b })
  | .cpuCacheSize, s => (s.settings.cpuCacheSize, s)
  | .setCpuCacheSize n, s => ((), { s with settings.cpuCacheSize := n })
  | .chunkSize, s => (s.settings.chunkSize, s)
  | .setChunkSize n, s => ((), { s with settings.chunkSize := n })

/-- The engine as its state describes it. -/
@[reducible] def engine : Responder interface := ⟨State, reply⟩

end AudioFeatures.Engine.Accounted
