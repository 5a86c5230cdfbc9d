import AudioFeatures.Condition.Token
import AudioFeatures.Layout.Basic
import AudioFeatures.Text.Utf8

/-! # Errors

Everything that can go wrong, as a cause with what it concerns. Authoring errors are mended by
changing the text of a feature; decode errors concern the value of one feature and leave the other
values alone.
-/

namespace AudioFeatures

/-- Why bytes and texts cannot pass between the engine and its client. -/
inductive StringFault where
  | notUtf8 (fault : Text.Utf8Fault)
  /-- A zero byte inside a text that the engine would take for its end. -/
  | interiorNul (position : Nat)
  deriving DecidableEq, Repr

namespace StringFault

def message : StringFault → String
  | notUtf8 fault => fault.message
  | interiorNul position => s!"nul byte found in provided data at position: {position}"

end StringFault

/-- Why a text is no feature. -/
inductive FeatureFault where
  | shape (text : String)
  | stage (rest text : String)
  | separator (rest text : String)
  | missingValue (parameter text : String)
  | missingName (text : String)
  deriving DecidableEq, Repr

namespace FeatureFault

def message : FeatureFault → String
  | shape text => text
  | stage rest text => s!"malformed stage \"{rest}\" in \"{text}\""
  | separator rest text => s!"expected ',' before \"{rest}\" in \"{text}\""
  | missingValue parameter text => s!"parameter \"{parameter}\" has no value in \"{text}\""
  | missingName text => s!"parameter without a name in \"{text}\""

end FeatureFault

/-- Why a value does not fit its format. -/
inductive SizeFault where
  | diagnostic (d : Diagnostic)
  /-- Rows longer than a list of the table format can be. -/
  | rowLength (length : Nat)
  deriving DecidableEq, Repr

namespace SizeFault

def message : SizeFault → String
  | diagnostic d => d.text
  | rowLength length => s!"row length {length} does not fit an Arrow list"

end SizeFault

/-- Why a file is no engine library; `reason` is what the loader says. -/
inductive LoadFault where
  | notLoadable (reason : String)
  | missingSymbol (name reason : String)
  deriving DecidableEq, Repr

namespace LoadFault

def message : LoadFault → String
  | notLoadable reason => reason
  | missingSymbol name reason => "missing symbol `" ++ name ++ "`: " ++ reason

def missingSymbol? : LoadFault → Option String
  | notLoadable _ => none
  | missingSymbol name _ => some name

end LoadFault

inductive FileFault where
  | notFound
  /-- The name holds a zero byte. -/
  | interiorNul
  deriving DecidableEq, Repr

namespace FileFault

def message : FileFault → String
  | notFound => "No such file or directory (os error 2)"
  | interiorNul => "file name contained an unexpected NUL byte"

end FileFault

inductive Error where
  | libraryLoad (path : String) (fault : LoadFault)
  | setupFailed (featureCount : Nat)
  | extractionFailed (status : Int32)
  | invalidString (fault : StringFault)
  | unknownResult (name : String)
  | bufferSizeMismatch (expected actual : Nat)
  | resultOutOfRange (index count : Nat)
  | transformNotRegistered (name : String)
  | formatNotRecognized (feature : String)
  | featureSyntax (fault : FeatureFault)
  | emptyFeature (feature : String)
  | duplicateFeature (feature : String)
  | condition (text : String) (fault : Condition.Fault)
  | malformedFormat (format : String)
  | unknownType (name : String)
  | unsupportedFormat (format : String)
  | sizeMismatch (format : String) (fault : SizeFault)
  /-- The length in a format starts inside a character; no reading of the format goes on. -/
  | splitCharacter (format : String)
  | file (fault : FileFault)
  | json
  deriving DecidableEq

namespace Error

/-- The name of the cause. -/
def name : Error → String
  | libraryLoad .. => "LibraryLoad"
  | setupFailed _ => "SetupFailed"
  | extractionFailed _ => "ExtractionFailed"
  | invalidString _ => "InvalidNativeString"
  | unknownResult _ => "UnknownFeatureResult"
  | bufferSizeMismatch .. => "BufferSizeMismatch"
  | resultOutOfRange .. => "FfiError"
  | transformNotRegistered _ => "TransformNotRegistered"
  | formatNotRecognized _ => "FeatureFormatNotRecognized"
  | featureSyntax _ => "ParsingFeatureFailed"
  | emptyFeature _ => "EmptyFeature"
  | duplicateFeature _ => "DuplicateFeature"
  | condition .. => "ConditionEvaluation"
  | malformedFormat _ => "MalformedFormat"
  | unknownType _ => "UnknownType"
  | unsupportedFormat _ => "UnsupportedFormat"
  | sizeMismatch .. => "SizeMismatch"
  | splitCharacter _ => "SplitCharacter"
  | file _ => "Io"
  | json => "SerdeJson"

/-- The message, without what the loader and the reader of JSON add to it. -/
def summary : Error → String
  | libraryLoad path _ => s!"Failed to load the native library '{path}'"
  | setupFailed n => s!"setup_features_extraction() rejected {n} feature(s)"
  | extractionFailed status => s!"extract_sound_features() returned status {status.toInt}"
  | invalidString fault => s!"Native library returned an invalid string: {fault.message}"
  | unknownResult name => s!"Native library returned a result for unknown feature \"{name}\""
  | bufferSizeMismatch expected actual =>
    s!"Sample buffer holds {actual} samples, the extractor was set up for {expected}"
  | resultOutOfRange index count =>
    s!"FFI operation failed: result index {index} out of range ({count} results)"
  | transformNotRegistered name => s!"Transform \"{name}\" is not registered"
  | formatNotRecognized feature => s!"Feature \"{feature}\"'s output format is not recognized"
  | featureSyntax fault => s!"Failed to parse the feature description: {fault.message}"
  | emptyFeature feature =>
    s!"Feature \"{feature}\" has no stages left after evaluating conditions"
  | duplicateFeature feature => s!"Feature \"{feature}\" is configured more than once"
  | condition text fault => s!"Failed to evaluate condition \"{text}\": {fault.message}"
  | malformedFormat format => s!"Malformed format string \"{format}\""
  | unknownType name => s!"Unknown element type \"{name}\""
  | unsupportedFormat format => s!"Format \"{format}\" is not supported"
  | sizeMismatch format fault => s!"Format size mismatch for \"{format}\": {fault.message}"
  | splitCharacter format => s!"The length in format \"{format}\" splits a character"
  | file fault => s!"I/O error: {fault.message}"
  | json => "Serde JSON error"

def message : Error → String
  | libraryLoad path fault => (libraryLoad path fault).summary ++ ": " ++ fault.message
  | e => e.summary

/-- Errors that a change of the feature's text can mend. -/
def isAuthoring : Error → Bool
  | transformNotRegistered _ | formatNotRecognized _ | featureSyntax _ | emptyFeature _
  | duplicateFeature _ | condition _ _ => true
  | _ => false

/-- Errors that concern a single value. -/
def isDecoding : Error → Bool
  | malformedFormat _ | unknownType _ | unsupportedFormat _ | sizeMismatch _ _ => true
  | _ => false

/-- Errors that no caller gets to handle. -/
def isFatal : Error → Bool
  | splitCharacter _ => true
  | _ => false

end Error

/-- A line for the log, at one of the two levels that matter. -/
inductive LogLine where
  | warning (text : String)
  | error (text : String)
  deriving DecidableEq, Repr

end AudioFeatures
