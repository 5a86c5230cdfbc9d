import AudioFeatures.Error

/-! # Exceptions

To a script every failure is an exception of some class. Errors of the library have classes of
their own with one base class in common, but for those that a class known to every script names as
well. The wording of complaints about arguments is the interpreter's.
-/

namespace AudioFeatures.Scripting

inductive Exception where
  /-- An argument is missing, unknown or of a type that its parameter does not take. -/
  | argumentType
  /-- An integer beyond the range of its parameter. -/
  | argumentRange
  /-- Half a sample at the end of a buffer of the given length. -/
  | oddLength (length : Nat)
  | logFile (path : String) (fault : FileFault)
  | failed (e : Error)
  deriving DecidableEq

/-- The base class of the library's own classes. -/
def baseClass : String := "SfxError"

def derivedClasses : List String := [
    "ConditionEvaluationError", "DuplicateFeatureError", "EmptyFeatureError",
    "ExtractionFailedError", "FeatureFormatNotRecognizedError", "LibraryLoadError",
    "MalformedFormatError", "ParsingFeatureFailedError", "SetupFailedError",
    "SizeMismatchError", "TransformNotRegisteredError", "UnknownTypeError",
    "UnsupportedFormatError"]

/-- The classes of the library, each with its base. -/
def classes : List (String × String) :=
  (baseClass, "Exception") :: derivedClasses.map fun name => (name, baseClass)

namespace Exception

def classOfError : Error → String
  | .libraryLoad .. => "LibraryLoadError"
  | .setupFailed _ => "SetupFailedError"
  | .extractionFailed _ => "ExtractionFailedError"
  | .transformNotRegistered _ => "TransformNotRegisteredError"
  | .formatNotRecognized _ => "FeatureFormatNotRecognizedError"
  | .featureSyntax _ => "ParsingFeatureFailedError"
  | .emptyFeature _ => "EmptyFeatureError"
  | .duplicateFeature _ => "DuplicateFeatureError"
  | .condition .. => "ConditionEvaluationError"
  | .malformedFormat _ => "MalformedFormatError"
  | .unknownType _ => "UnknownTypeError"
  | .unsupportedFormat _ => "UnsupportedFormatError"
  | .sizeMismatch .. => "SizeMismatchError"
  | .bufferSizeMismatch .. => "ValueError"
  | .file _ => "OSError"
  | .splitCharacter _ => "PanicException"
  | .invalidString _ | .unknownResult _ | .resultOutOfRange .. | .json => baseClass

def className : Exception → String
  | argumentType => "TypeError"
  | argumentRange => "OverflowError"
  | oddLength _ => "ValueError"
  | logFile .. => "OSError"
  | failed e => classOfError e

/-- Whether the class is one of the library. -/
def isOwn (x : Exception) : Bool := (classes.map (·.1)).contains x.className

/-- The message, where it is the library that words it. -/
def message? : Exception → Option String
  | argumentType | argumentRange | failed (.splitCharacter _) => none
  | oddLength n => some s!"A bytes buffer of 16-bit samples must have an even length, got {n}"
  | logFile path fault => some s!"Could not open log file {path}: {fault.message}"
  | failed e => some e.message

end Exception

end AudioFeatures.Scripting
