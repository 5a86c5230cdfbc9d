import AudioFeatures.Catalog.Json
import AudioFeatures.Extractor.Extraction
import AudioFeatures.Scripting.Functions

/-! # Objects for scripts

Scripts hold explorers, which show the catalog, and extractors. All of them share one library and
one catalog.
-/

namespace AudioFeatures.Scripting

open Engine

/-- The arguments of a function that takes none. -/
def noArguments (args : Arguments) : Except Exception Unit := Signature.check {} args

structure Explorer where
  catalog : Catalog

namespace Explorer

/-- An explorer of the shared catalog. -/
def ofShared (s : SharedEngine) (files : LibraryFiles) (args : Arguments) :
    Dialogue Libraries (Except Exception (Library × Explorer) × SharedEngine) :=
  match readLibraryPath args with
  | .error x => return (.error x, s)
  | .ok path => do
    let (c, s) ← s.use files path
    return ((c.map fun (l, c) => (l, ⟨c⟩)).mapError .failed, s)

def new (s : SharedEngine) (files : LibraryFiles) (args : Arguments) :
    Talk (Except Exception Explorer × SharedEngine) :=
  SharedEngine.alone (ofShared s files args)

def transforms (x : Explorer) (args : Arguments) : Except Exception Value := do
  noArguments args
  return .ofTexts (x.catalog.transforms.values.map (·.name))

def describe (x : Explorer) (args : Arguments) : Except Exception Value := do
  Signature.check ⟨["name"], ["markdown"]⟩ args
  let name ← args.required "name" Value.toText
  let markdown ← args.optional "markdown" false Value.toBool
  match x.catalog.get? name with
  | some t => return .text (if markdown then t.markdown else t.plain)
  | none => .error (.failed (.transformNotRegistered name))

def formatConverters (x : Explorer) (args : Arguments) : Except Exception Value := do
  noArguments args
  return .dict (x.catalog.converters.entries.map fun e => (e.1, .ofTexts e.2))

def convertersFrom (x : Explorer) (args : Arguments) : Except Exception Value := do
  Signature.check ⟨["input_format"], []⟩ args
  let input ← args.required "input_format" Value.toText
  return .ofTexts (x.catalog.convertersFrom input)

def toJson (x : Explorer) (args : Arguments) : Except Exception Value := do
  noArguments args
  return .text x.catalog.jsonText

def length (x : Explorer) : Nat := x.catalog.size

end Explorer

/-- The configuration of an extractor and the texts of its features. -/
def readExtractor (args : Arguments) : Except Exception (List String × Config) := do
  Signature.check ⟨["features", "buffer_size", "sampling_rate"],
    ["channels", "library_path", "strict", "max_threads"]⟩ args
  let features ← args.required "features" Value.toTexts
  let bufferSize ← args.required "buffer_size" Value.toUInt64
  let samplingRate ← args.required "sampling_rate" Value.toUInt32
  let channels ← args.optional "channels" 1 Value.toUInt32
  let libraryPath ← libraryPath args
  let strict ← args.optional "strict" false Value.toBool
  let maxThreads ← args.optional "max_threads" none (Value.toOption Value.toInt32)
  return (features, {
    libraryPath, bufferSize, samplingRate, channels
    decode := options strict, tunables.maxThreads := maxThreads })

/-- Opens an extractor, unless its settings could not be read. -/
def openExtractor (s : SharedEngine) (files : LibraryFiles)
    (settings : Except Exception (List String × Config)) :
    Dialogue Libraries (Except Exception (Library × Extractor) × SharedEngine) :=
  match settings with
  | .error x => return (.error x, s)
  | .ok (features, config) => do
    let (x, s) ← s.setUp files features config
    return (x.mapError .failed, s)

def newExtractor (s : SharedEngine) (files : LibraryFiles) (args : Arguments) :
    Talk (Except Exception Extractor × SharedEngine) :=
  SharedEngine.alone (openExtractor s files (readExtractor args))

/-- An extractor with a configuration in a file, of which `content` is the text. -/
def newExtractorOfFile (s : SharedEngine) (files : LibraryFiles) (features : Value)
    (content : Option String) : Talk (Except Exception Extractor × SharedEngine) :=
  SharedEngine.alone <| openExtractor s files do
    let features ← features.toTexts
    let config ← (Config.ofFile content).mapError .failed
    return (features, config)

/-- The values of results. A value that could not be decoded raises its exception, or has the
exception in its place. -/
def values (raising : Bool) :
    List (String × Except Error Decoded) → Except Exception (List (String × Value))
  | [] => .ok []
  | (name, result) :: rest => do
    let value ← match result with
      | .ok d => Value.ofDecoded d
      | .error e => if raising then .error (.failed e) else .ok (.exception (.failed e))
    return (name, value) :: (← values raising rest)

/-- Runs one extraction. -/
def calculate (x : Extractor) (samples : Value) (args : Arguments) :
    Talk (Except Exception Value × Extractor) :=
  let read : Except Exception (List Int16 × Bool) := do
    Signature.check ⟨[], ["raise_on_error"]⟩ args
    let raising ← args.optional "raise_on_error" true Value.toBool
    return (← samples.toSamples, raising)
  match read with
  | .error e => return (.error e, x)
  | .ok (samples, raising) => do
    match ← x.calculateRaw samples with
    | (.error e, x) => return (.error (.failed e), x)
    | (.ok raw, x) =>
      let results ← raw.decodeLogged
      raw.release
      return (results.mapError .failed >>= fun rs => (values raising rs.entries).map .dict, x)

def report (x : Extractor) (args : Arguments) : Talk (Except Exception Value) :=
  let read : Except Exception String := do
    Signature.check ⟨["path"], []⟩ args
    args.required "path" Value.toText
  match read with
  | .error e => return .error e
  | .ok path => do
    x.report (Text.Utf8.encode path)
    return .ok .none

def timingReport (x : Extractor) (args : Arguments) : Talk (Except Exception Value) :=
  match noArguments args with
  | .error e => return .error e
  | .ok () => do
    return (← x.timingReport).mapError .failed |>.map fun times =>
      .list (times.map fun (name, bits) =>
        .tuple [.text name, .float (Float32.ofBits bits).toFloat])

def featureTexts (x : Extractor) : List String := x.features.map Feature.text

def representation (x : Extractor) : String :=
  s!"Extractor(features={x.slots.length}, buffer_size={x.config.bufferSize}, " ++
    s!"sampling_rate={x.config.samplingRate})"

/-- The version of the module. -/
def version : String := "0.4.0"

/-- What the module offers by name. -/
def names : List String :=
  classes.map (·.1) ++ ["Explorer", "Extractor", "compile_feature", "decode_buffer",
    "enable_verbose_logging", "get_tunables", "parse_format", "set_tunables"]

end AudioFeatures.Scripting
