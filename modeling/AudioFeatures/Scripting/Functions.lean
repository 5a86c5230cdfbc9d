import AudioFeatures.SharedEngine
import AudioFeatures.Scripting.Signature

/-! # Functions for scripts

The functions of the scripting module that stand alone. Those that concern the engine work with the
shared library.
-/

namespace AudioFeatures.Scripting

open Engine

/-- The lines that the logger of the module writes. -/
def logText : LogLine → String
  | .warning text => "[WARN] " ++ text
  | .error text => "[ERROR] " ++ text

def options (strict : Bool) : DecodeOptions := if strict then .strict else {}

/-- Decodes a buffer on its own. -/
def decodeBuffer (args : Arguments) : Talk (Except Exception Value) :=
  let read : Except Exception (Bytes × String × DecodeOptions) := do
    Signature.check ⟨["data", "format_name"], ["strict"]⟩ args
    let data ← args.required "data" Value.toBytes
    let format ← args.required "format_name" Value.toText
    let strict ← args.optional "strict" false Value.toBool
    return (data, format, options strict)
  match read with
  | .error x => return .error x
  | .ok (data, format, options) => do
    Dialogue.writeAll (Decoded.warningsOfFormat format ⟨data, 0⟩ options)
    return (Decoded.ofFormat format ⟨data, 0⟩ options).mapError .failed >>= Value.ofDecoded

def parseFormat (args : Arguments) : Except Exception Value := do
  Signature.check ⟨["format_name"], []⟩ args
  let format ← args.required "format_name" Value.toText
  return .ofLayout (← (Layout.parse format).mapError .failed)

/-- The pipeline of a feature for a stream of the given properties. -/
def compileFeature (args : Arguments) : Except Exception Value := do
  Signature.check ⟨["text", "sampling_rate"], ["channels", "buffer_size"]⟩ args
  let text ← args.required "text" Value.toText
  let samplingRate ← args.required "sampling_rate" Value.toUInt32
  let channels ← args.optional "channels" 1 Value.toUInt32
  let bufferSize ← args.optional "buffer_size" 0 Value.toUInt64
  let pipeline := Feature.parse text >>= fun f =>
    f.compile (Config.localsOf samplingRate channels bufferSize)
  return .text (← pipeline.mapError .failed)

/-- The path of the library, or the usual one. -/
def libraryPath (args : Arguments) : Except Exception String := do
  let path ← args.optional "library_path" none (Value.toOption Value.toText)
  return path.getD Config.defaultLibraryPath

/-- The argument of a function that takes the path of the library only. -/
def readLibraryPath (args : Arguments) : Except Exception String := do
  Signature.check ⟨[], ["library_path"]⟩ args
  libraryPath args

def ofTunables (t : Tunables) : Value := .dict [
    ("max_threads", (t.maxThreads.map fun n => .int n.toInt).getD .none),
    ("use_simd", (t.useSimd.map .bool).getD .none),
    ("cpu_cache_size", (t.cpuCacheSize.map fun n => .int n.toNat).getD .none),
    ("chunk_size", (t.chunkSize.map fun n => .int n.toNat).getD .none)]

/-- The settings of the shared engine. -/
def currentTunables (s : SharedEngine) (files : LibraryFiles) (args : Arguments) :
    Dialogue Libraries (Except Exception (Library × Value) × SharedEngine) :=
  match readLibraryPath args with
  | .error x => return (.error x, s)
  | .ok path => do
    match ← s.useLibrary files path with
    | (.error e, s) => return (.error (.failed e), s)
    | (.ok l, s) =>
      let tunables ← l.hold Tunables.current
      return (.ok (l, ofTunables tunables), s)

def getTunables (s : SharedEngine) (files : LibraryFiles) (args : Arguments) :
    Talk (Except Exception Value × SharedEngine) :=
  SharedEngine.alone (currentTunables s files args)

/-- Settings and the path of the library. -/
def readTunables (args : Arguments) : Except Exception (Tunables × String) := do
  Signature.check
    ⟨[], ["max_threads", "use_simd", "cpu_cache_size", "chunk_size", "library_path"]⟩ args
  let maxThreads ← args.optional "max_threads" none (Value.toOption Value.toInt32)
  let useSimd ← args.optional "use_simd" none (Value.toOption Value.toBool)
  let cpuCacheSize ← args.optional "cpu_cache_size" none (Value.toOption Value.toUInt64)
  let chunkSize ← args.optional "chunk_size" none (Value.toOption Value.toUInt64)
  return (⟨maxThreads, useSimd, cpuCacheSize, chunkSize⟩, ← libraryPath args)

/-- Changes the settings of the shared engine. -/
def changeTunables (s : SharedEngine) (files : LibraryFiles) (args : Arguments) :
    Dialogue Libraries (Except Exception (Library × Value) × SharedEngine) :=
  match readTunables args with
  | .error x => return (.error x, s)
  | .ok (tunables, path) => do
    match ← s.useLibrary files path with
    | (.error e, s) => return (.error (.failed e), s)
    | (.ok l, s) =>
      l.hold tunables.apply
      return (.ok (l, .none), s)

def setTunables (s : SharedEngine) (files : LibraryFiles) (args : Arguments) :
    Talk (Except Exception Value × SharedEngine) :=
  SharedEngine.alone (changeTunables s files args)

/-- Opens the log file. The logger itself is set up once and for all; `fault?` tells which files
cannot be opened. -/
def enableVerboseLogging (fault? : String → Option FileFault) (args : Arguments) :
    Except Exception Value := do
  Signature.check ⟨[], ["log_file", "debug"]⟩ args
  let path ← args.optional "log_file" none (Value.toOption Value.toText)
  let _ ← args.optional "debug" false Value.toBool
  match path.bind fun path => (fault? path).map (path, ·) with
  | some (path, fault) => .error (.logFile path fault)
  | none => return .none

end AudioFeatures.Scripting
