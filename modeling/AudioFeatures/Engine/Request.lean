import AudioFeatures.Engine.Dialogue
import AudioFeatures.Engine.ForeignText
import AudioFeatures.Engine.SampleBuffer

/-! # The engine

What the engine can be asked, and the lists that it hands over. It keeps such a list until it is
given back. A list may be a null pointer, which is `none` here, and its length is what the engine
says it is.
-/

namespace AudioFeatures

namespace Engine

/-- The names of all transforms. -/
structure NameList where
  items : Option (List ForeignText)
  length : Int32

structure Details where
  description : ForeignText
  inputFormat : ForeignText
  outputFormat : ForeignText
  parameterNames : Option (List ForeignText)
  parameterDescriptions : Option (List ForeignText)
  parameterDefaults : Option (List ForeignText)
  parameterCount : Int32

structure ConverterList where
  inputs : Option (List ForeignText)
  outputs : Option (List ForeignText)
  length : Int32

/-- The results of an extraction: for each feature its name, its bytes and their number. -/
structure Batch where
  names : Option (List ForeignText)
  values : Option (List (Option Bytes))
  lengths : Option (List Int32)
  count : Int32

/-- For each transform the seconds spent in it, in single precision. -/
structure TimeReport where
  names : Option (List ForeignText)
  values : Option (List UInt32)
  length : Int32

/-- A set of pipelines that the engine was set up with. -/
structure Configuration where
  id : Nat
  deriving DecidableEq, Repr

structure Extraction where
  status : Int32
  batch : Batch
  /-- What the engine leaves in the sample buffer, from its first sample on. -/
  samples : List Int16

inductive Request where
  | queryTransforms
  | releaseTransforms (l : NameList)
  | queryDetails (name : String)
  | releaseDetails (d : Details)
  | queryConverters
  | releaseConverters (l : ConverterList)
  | setup (pipelines : List String) (bufferSize : UInt64) (samplingRate : Int32)
  | extract (c : Configuration) (samples : List Int16) (featureCount : Int32)
  | releaseBatch (b : Batch)
  | queryTimes (c : Configuration)
  | releaseTimes (r : TimeReport)
  | reportGraph (c : Configuration) (path : String)
  | destroy (c : Configuration)
  | maxThreads
  | setMaxThreads (n : Int32)
  | useSimd
  | setUseSimd (b : Bool)
  | cpuCacheSize
  | setCpuCacheSize (n : UInt64)
  | chunkSize
  | setChunkSize (n : UInt64)

namespace Request

@[reducible] def Reply : Request → Type
  | queryTransforms => NameList
  | queryDetails _ => Details
  | queryConverters => ConverterList
  | setup .. => Option Configuration
  | extract .. => Extraction
  | queryTimes _ => TimeReport
  | maxThreads => Int32
  | useSimd => Bool
  | cpuCacheSize | chunkSize => UInt64
  | _ => Unit

/-- The symbol under which a library exports the function for the request. -/
def symbol : Request → String
  | queryTransforms => "query_transforms_list"
  | releaseTransforms _ => "destroy_transforms_list"
  | queryDetails _ => "query_transform_details"
  | releaseDetails _ => "destroy_transform_details"
  | queryConverters => "query_format_converters_list"
  | releaseConverters _ => "destroy_format_converters_list"
  | setup .. => "setup_features_extraction"
  | extract .. => "extract_sound_features"
  | releaseBatch _ => "free_results"
  | queryTimes _ => "report_extraction_time"
  | releaseTimes _ => "destroy_extraction_time_report"
  | reportGraph .. => "report_extraction_graph"
  | destroy _ => "destroy_features_configuration"
  | maxThreads => "get_omp_transforms_max_threads_num"
  | setMaxThreads _ => "set_omp_transforms_max_threads_num"
  | useSimd => "get_use_simd"
  | setUseSimd _ => "set_use_simd"
  | cpuCacheSize => "get_cpu_cache_size"
  | setCpuCacheSize _ => "set_cpu_cache_size"
  | chunkSize => "get_chunk_size"
  | setChunkSize _ => "set_chunk_size"

end Request

/-- The engine as a partner of dialogues. -/
@[reducible] def interface : Interface := ⟨Request, Request.Reply⟩

/-- A dialogue with an engine. -/
abbrev Talk (α : Type) := Dialogue interface α

def ask (q : Request) : Talk q.Reply := Dialogue.request (I := interface) q

/-- Asks for something that the engine wants back. It is used, and then given back whatever came of
it. -/
def bracket {α : Type} (acquire : Request) (release : acquire.Reply → Request)
    (use : acquire.Reply → Talk α) : Talk α := do
  let r ← ask acquire
  let a ← use r
  let _ ← ask (release r)
  return a

/-- A length below zero counts as none. -/
def lengthOf (length : Int32) : Nat := length.toInt.toNat

namespace NameList

def read (l : NameList) : Except Error (List String) :=
  ForeignText.readList l.items (lengthOf l.length)

end NameList

namespace Details

/-- What the engine tells about a transform. -/
structure Text where
  description : String
  inputFormat : String
  outputFormat : String
  /-- Name, description and default value of each parameter. -/
  parameters : List (String × String × String)

def read (d : Details) : Except Error Text := do
  let n := lengthOf d.parameterCount
  let names ← ForeignText.readList d.parameterNames n
  let descriptions ← ForeignText.readList d.parameterDescriptions n
  let defaults ← ForeignText.readList d.parameterDefaults n
  let description ← d.description.read
  let inputFormat ← d.inputFormat.read
  let outputFormat ← d.outputFormat.read
  return ⟨description, inputFormat, outputFormat, names.zip (descriptions.zip defaults)⟩

end Details

namespace ConverterList

/-- Input and output of each converter. -/
def read (l : ConverterList) : Except Error (List (String × String)) := do
  let inputs ← ForeignText.readList l.inputs (lengthOf l.length)
  let outputs ← ForeignText.readList l.outputs (lengthOf l.length)
  return inputs.zip outputs

end ConverterList

namespace Batch

/-- Without names there are no results. -/
def size (b : Batch) : Nat :=
  match b.names with
  | none => 0
  | some _ => lengthOf b.count

/-- The bytes of a value; a null pointer has none, whatever its length. -/
def bytesAt (b : Batch) (i : Nat) : Bytes :=
  match b.values, b.lengths with
  | some values, some lengths =>
    match (values[i]?).join with
    | some bytes => bytes.take (lengthOf (lengths.getD i 0))
    | none => []
  | _, _ => []

/-- Name and bytes of a result. -/
def entry (b : Batch) (i : Nat) : Except Error (String × Bytes) :=
  if b.size ≤ i then .error (.resultOutOfRange i b.size)
  else do
    let name ← ForeignText.read ((b.names.bind fun names => names[i]?).join)
    return (name, b.bytesAt i)

def entries (b : Batch) : Except Error (List (String × Bytes)) :=
  (List.range b.size).mapM b.entry

end Batch

namespace TimeReport

/-- Without values no time was spent. -/
def read (r : TimeReport) : Except Error (List (String × UInt32)) := do
  let n := lengthOf r.length
  let names ← ForeignText.readList r.names n
  return match r.values with
    | none => names.map fun name => (name, 0)
    | some values => names.zip (values.take n)

end TimeReport

end Engine

end AudioFeatures
