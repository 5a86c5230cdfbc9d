import AudioFeatures.Decoded.Basic
import AudioFeatures.Extractor.Basic
import AudioFeatures.Text.Quoted

/-! # Extractions

One extraction yields a batch of results, which belong to the engine until they are given back. A
result whose value cannot be decoded leaves the others alone; a batch as a whole cannot be decoded
when its names do not fit the features.
-/

namespace AudioFeatures

open Engine

/-- Per feature the value, or why there is none. -/
abbrev Results := Dict (Except Error Decoded)

namespace Slot

/-- The value of a result. -/
def decode (s : Slot) (options : DecodeOptions) (bytes : Bytes) : Except Error Decoded :=
  match s.format with
  | some format => Decoded.ofFormat format ⟨bytes, 0⟩ options
  | none => .error (.formatNotRecognized s.feature.name)

/-- What decoding a result writes to the log. -/
def decodeLog (s : Slot) (options : DecodeOptions) (bytes : Bytes) : List LogLine :=
  (match s.format with
    | some format => Decoded.warningsOfFormat format ⟨bytes, 0⟩ options
    | none => []) ++
  match s.decode options bytes with
  | .ok _ => []
  | .error e =>
    if e.isFatal then []
    else [.error ("Failed to decode " ++ s.feature.name ++ ": " ++ e.message)]

end Slot

/-- The results of an extraction, as the engine handed them over. -/
structure RawExtraction where
  batch : Batch
  extractor : Extractor

namespace RawExtraction

def size (r : RawExtraction) : Nat := r.batch.size

/-- Names and bytes of all results. -/
def bytes (r : RawExtraction) : Except Error (List (String × Bytes)) := r.batch.entries

/-- The values of results one after the other. -/
def decodeEntries (x : Extractor) :
    List (String × Bytes) → Except Error (List (String × Except Error Decoded))
  | [] => .ok []
  | (name, bytes) :: rest =>
    match x.slot? name with
    | none => .error (.unknownResult name)
    | some s =>
      match s.decode x.config.decode bytes with
      | .error e =>
        if e.isFatal then .error e
        else (decodeEntries x rest).map fun es => (name, .error e) :: es
      | .ok d => (decodeEntries x rest).map fun es => (name, .ok d) :: es

/-- Lines are written up to the result at which decoding stops. -/
def decodeEntriesLog (x : Extractor) : List (String × Bytes) → List LogLine
  | [] => []
  | (name, bytes) :: rest =>
    match x.slot? name with
    | none => []
    | some s =>
      s.decodeLog x.config.decode bytes ++
        match s.decode x.config.decode bytes with
        | .error e => if e.isFatal then [] else decodeEntriesLog x rest
        | .ok _ => decodeEntriesLog x rest

/-- All values. All names are read before the first value is decoded. -/
def decode (r : RawExtraction) : Except Error Results := do
  let es ← r.bytes
  return .ofList (← decodeEntries r.extractor es)

def decodeLog (r : RawExtraction) : List LogLine :=
  match r.bytes with
  | .ok es => decodeEntriesLog r.extractor es
  | .error _ => []

/-- Decodes all values in the course of a dialogue. -/
def decodeLogged (r : RawExtraction) : Talk (Except Error Results) := do
  Dialogue.writeAll r.decodeLog
  return r.decode

/-- Gives the results back. -/
def release (r : RawExtraction) : Talk Unit := ask (.releaseBatch r.batch)

end RawExtraction

namespace Extractor

/-- The extractor after the engine left samples in its buffer. -/
def withBuffer (x : Extractor) (samples left : List Int16) : Extractor :=
  { x with
    buffer := (x.buffer.overwrite samples).overwrite left
    size_buffer := by simp [x.size_buffer] }

/-- Runs one extraction over a buffer of samples. Results are given back at once when the engine
reports a failure. -/
def calculateRaw (x : Extractor) (samples : List Int16) :
    Talk (Except Error RawExtraction × Extractor) := do
  if samples.length != x.config.bufferSize.toNat then
    return (.error (.bufferSizeMismatch x.config.bufferSize.toNat samples.length), x)
  else
    let input := (x.buffer.overwrite samples).toList
    let r ← ask (.extract x.configuration input x.resultCount)
    let x := x.withBuffer samples r.samples
    if r.status != 0 then
      Dialogue.write
        (.error ("extract_sound_features() returned " ++ toString r.status.toInt))
      ask (.releaseBatch r.batch)
      return (.error (.extractionFailed r.status), x)
    else return (.ok ⟨r.batch, x⟩, x)

/-- Runs one extraction and decodes its results, which are given back in any case. The values no
longer lie in the engine's memory. -/
def calculate (x : Extractor) (samples : List Int16) : Talk (Except Error Results × Extractor) := do
  match ← x.calculateRaw samples with
  | (.error e, x) => return (.error e, x)
  | (.ok raw, x) =>
    let results ← raw.decodeLogged
    raw.release
    return (results.map fun rs => rs.map fun result => result.map Decoded.detach, x)

/-- The seconds spent in each transform. -/
def timingReport (x : Extractor) : Talk (Except Error (List (String × UInt32))) :=
  bracket (.queryTimes x.configuration) .releaseTimes fun r => return r.read

/-- Has the engine write its graph to a file. A path that is no text, or that the engine cannot take
as one, is only logged. -/
def report (x : Extractor) (path : Bytes) : Talk Unit :=
  match Text.Utf8.decode path with
  | .error _ => Dialogue.write
      (.error ("Cannot report extraction graph to non-UTF-8 path " ++ Text.Quoted.encode path))
  | .ok text =>
    match ForeignText.checkBytes path with
    | .error (.invalidString fault) => Dialogue.write
        (.error ("Cannot report extraction graph to " ++ Text.Quoted.encode path ++ ": " ++
          fault.message))
    | _ => ask (.reportGraph x.configuration text)

end Extractor

end AudioFeatures
