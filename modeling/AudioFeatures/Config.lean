import AudioFeatures.Condition.Value
import AudioFeatures.Decoded.Basic
import AudioFeatures.Json.Reader
import AudioFeatures.Json.Writer

/-! # Configurations

What an extractor is set up with: the engine library, the shape of the sample buffer, how results
are decoded and which tunables of the engine are changed. Written as JSON, a configuration must give
the buffer size and the sampling rate.
-/

namespace AudioFeatures

/-- Process-wide settings of the engine; one that is not given stays as it is. -/
structure Tunables where
  maxThreads : Option Int32 := none
  useSimd : Option Bool := none
  cpuCacheSize : Option UInt64 := none
  chunkSize : Option UInt64 := none
  deriving DecidableEq, Repr

structure Config where
  libraryPath : String := "libSoundFeatureExtraction.so"
  /-- The number of samples that an extraction takes. -/
  bufferSize : UInt64
  samplingRate : UInt32
  channels : UInt32 := 1
  decode : DecodeOptions := {}
  tunables : Tunables := {}
  deriving DecidableEq, Repr

namespace Config

def defaultLibraryPath : String := "libSoundFeatureExtraction.so"

def ofSize (bufferSize : UInt64) (samplingRate : UInt32) : Config := { bufferSize, samplingRate }

/-- The variables that conditions see. A buffer size of 64 bits turns into a negative number when
its top bit is set. -/
def localsOf (samplingRate channels : UInt32) (bufferSize : UInt64) : Condition.Locals :=
  .ofList [("sampling_rate", .int (Int64.ofNat samplingRate.toNat)),
    ("channels", .int (Int64.ofNat channels.toNat)), ("buffer_size", .int bufferSize.toInt64)]

def locals (c : Config) : Condition.Locals := localsOf c.samplingRate c.channels c.bufferSize

end Config

namespace MismatchPolicy

def name : MismatchPolicy → String
  | warn => "warn"
  | error => "error"

def ofJson? (j : Json) : Option MismatchPolicy := j.variant? [("warn", warn), ("error", error)]

end MismatchPolicy

namespace RowRule

def name : RowRule → String
  | multipleOf => "multiple_of"
  | exactLength => "exact_length"

def ofJson? (j : Json) : Option RowRule :=
  j.variant? [("multiple_of", multipleOf), ("exact_length", exactLength)]

end RowRule

namespace DecodeOptions

def toJson (o : DecodeOptions) : Json := .ofMembers [
    ("size_mismatch", .text o.policy.name), ("fixed_array_rule", .text o.rule.name)]

def ofJson? (j : Json) : Option DecodeOptions := do
  match ← j.record? ["size_mismatch", "fixed_array_rule"] with
  | [policy, rule] =>
    let policy ← Json.withDefault .warn MismatchPolicy.ofJson? policy
    let rule ← Json.withDefault .multipleOf RowRule.ofJson? rule
    return ⟨policy, rule⟩
  | _ => none

end DecodeOptions

namespace Tunables

def toJson (t : Tunables) : Json := .ofMembers [
    ("max_threads", .ofOption (fun n => .int n.toInt) t.maxThreads),
    ("use_simd", .ofOption Json.bool t.useSimd),
    ("cpu_cache_size", .ofOption (fun n => .nat n.toNat) t.cpuCacheSize),
    ("chunk_size", .ofOption (fun n => .nat n.toNat) t.chunkSize)]

def ofJson? (j : Json) : Option Tunables := do
  match ← j.record? ["max_threads", "use_simd", "cpu_cache_size", "chunk_size"] with
  | [maxThreads, useSimd, cpuCacheSize, chunkSize] =>
    let maxThreads ← Json.withDefault none (Json.toOption? Json.toInt32?) maxThreads
    let useSimd ← Json.withDefault none (Json.toOption? Json.toBool?) useSimd
    let cpuCacheSize ← Json.withDefault none (Json.toOption? Json.toUInt64?) cpuCacheSize
    let chunkSize ← Json.withDefault none (Json.toOption? Json.toUInt64?) chunkSize
    return ⟨maxThreads, useSimd, cpuCacheSize, chunkSize⟩
  | _ => none

end Tunables

namespace Config

def toJson (c : Config) : Json := .ofMembers [
    ("library_path", .text c.libraryPath), ("buffer_size", .nat c.bufferSize.toNat),
    ("sampling_rate", .nat c.samplingRate.toNat), ("channels", .nat c.channels.toNat),
    ("decode", c.decode.toJson), ("tunables", c.tunables.toJson)]

def fields : List String := [
    "library_path", "buffer_size", "sampling_rate", "channels", "decode", "tunables"]

def ofJson? (j : Json) : Option Config := do
  match ← j.record? fields with
  | [libraryPath, bufferSize, samplingRate, channels, decode, tunables] =>
    let libraryPath ← Json.withDefault defaultLibraryPath Json.toText? libraryPath
    let bufferSize ← Json.required Json.toUInt64? bufferSize
    let samplingRate ← Json.required Json.toUInt32? samplingRate
    let channels ← Json.withDefault 1 Json.toUInt32? channels
    let decode ← Json.withDefault {} DecodeOptions.ofJson? decode
    let tunables ← Json.withDefault {} Tunables.ofJson? tunables
    return { libraryPath, bufferSize, samplingRate, channels, decode, tunables }
  | _ => none

def parse (text : String) : Except Error Config :=
  match Json.read? text >>= ofJson? with
  | some c => .ok c
  | none => .error .json

/-- The configuration that a file holds, if there is such a file. -/
def ofFile (content : Option String) : Except Error Config :=
  match content with
  | some text => parse text
  | none => .error (.file .notFound)

end Config

end AudioFeatures
