import AudioFeatures.Catalog.Load
import AudioFeatures.Engine.Library
import AudioFeatures.Extractor.Basic

/-! # Shared engines

All parts of a program share one engine library and one catalog. The first library that loads
stays, and so does the first catalog; a failed load leaves its place empty for the next attempt.
What is made with the library comes with it, and its requests are put to the engine of this library.
-/

namespace AudioFeatures

open Engine

structure SharedEngine where
  library : Option Library := none
  catalog : Option Catalog := none

/-- What the loader finds under each path. -/
abbrev LibraryFiles := String → LibraryFile

/-- The warning for those who ask for another library than the one that is loaded. -/
def Library.ignoring (l : Library) (path : String) : LogLine :=
  .warning ("Native library already loaded from " ++ l.path ++ ", ignoring " ++ path)

namespace SharedEngine

/-- The shared library. Whoever asks for another one is warned; no engine is asked. -/
def useLibrary {I : Interface} (s : SharedEngine) (files : LibraryFiles) (path : String) :
    Dialogue I (Except Error Library × SharedEngine) := do
  match s.library with
  | some l =>
    if l.path != path then Dialogue.write (l.ignoring path)
    return (.ok l, s)
  | none =>
    match Library.load path (files path) with
    | .error e => return (.error e, s)
    | .ok l => return (.ok l, { s with library := some l })

/-- The shared catalog. -/
def useCatalog (s : SharedEngine) : Talk (Except Error Catalog × SharedEngine) := do
  let (c, slot) ← Catalog.getOrLoad s.catalog
  return (c, { s with catalog := slot })

/-- Library and catalog together. A catalog that is not there yet is loaded with the engine of the
library. -/
def use (s : SharedEngine) (files : LibraryFiles) (path : String) :
    Dialogue Libraries (Except Error (Library × Catalog) × SharedEngine) := do
  match ← s.useLibrary files path with
  | (.error e, s) => return (.error e, s)
  | (.ok l, s) =>
    let (c, s) ← l.hold s.useCatalog
    return (c.map fun c => (l, c), s)

/-- Sets up an extractor with the engine of the shared library and with the shared catalog. -/
def setUp (s : SharedEngine) (files : LibraryFiles) (texts : List String) (config : Config) :
    Dialogue Libraries (Except Error (Library × Extractor) × SharedEngine) := do
  match ← s.use files config.libraryPath with
  | (.error e, s) => return (.error e, s)
  | (.ok (l, c), s) =>
    let x ← l.hold (Extractor.ofTexts c texts config)
    return (x.map fun x => (l, x), s)

/-- What is given with its library, where there is only one engine. -/
def alone {ε α : Type} (d : Dialogue Libraries (Except ε (Library × α) × SharedEngine)) :
    Talk (Except ε α × SharedEngine) := do
  let (a, s) ← d.unnamed
  return (a.map Prod.snd, s)

def openExtractor (s : SharedEngine) (files : LibraryFiles) (texts : List String)
    (config : Config) : Talk (Except Error Extractor × SharedEngine) :=
  alone (s.setUp files texts config)

end SharedEngine

end AudioFeatures
