import AudioFeatures.Engine.Request

/-! # Engine libraries

An engine comes as a library that exports one function for each request. All of them are looked up
when the library is loaded. Lists that are null pointers are not given back to the library; details
and results always are.
-/

namespace AudioFeatures

/-- The symbols of a library, in the order in which they are looked up. -/
def Engine.symbols : List String := [
    "query_transforms_list", "destroy_transforms_list", "query_transform_details",
    "destroy_transform_details", "query_format_converters_list",
    "destroy_format_converters_list", "setup_features_extraction", "extract_sound_features",
    "free_results", "report_extraction_time", "destroy_extraction_time_report",
    "report_extraction_graph", "destroy_features_configuration",
    "get_omp_transforms_max_threads_num", "set_omp_transforms_max_threads_num", "get_use_simd",
    "set_use_simd", "get_cpu_cache_size", "set_cpu_cache_size", "get_chunk_size",
    "set_chunk_size"]

/-- What the loader finds under a path. -/
inductive LibraryFile where
  | notLoadable (reason : String)
  | exports (symbols : List String)

structure Library where
  path : String
  deriving DecidableEq, Repr

namespace Library

open Engine

/-- Fails with the first symbol that is missing. -/
def load (path : String) (file : LibraryFile) : Except Error Library :=
  match file with
  | .notLoadable reason => .error (.libraryLoad path (.notLoadable reason))
  | .exports symbols =>
    match Engine.symbols.find? fun s => !symbols.contains s with
    | some s => .error (.libraryLoad path (.missingSymbol s "undefined symbol"))
    | none => .ok ⟨path⟩

/-- How a request to the engine becomes calls of its library. -/
def serve : (q : Request) → Talk q.Reply
  | .releaseTransforms l =>
    if l.items.isSome then ask (.releaseTransforms l) else pure ()
  | .releaseConverters l =>
    if l.inputs.isSome || l.outputs.isSome then ask (.releaseConverters l) else pure ()
  | .releaseTimes r =>
    if r.names.isSome then ask (.releaseTimes r) else pure ()
  | .setup pipelines bufferSize samplingRate =>
    if pipelines.length < 0x80000000 then ask (.setup pipelines bufferSize samplingRate)
    else pure none
  | .extract c samples featureCount => do
    let x ← ask (.extract c samples featureCount)
    return { x with batch.count := featureCount }
  | q => ask q

/-- A dialogue with an engine, held with the library that it comes as. -/
def through {α : Type} (d : Talk α) : Talk α := d.via serve

end Library

/-! ## Several libraries -/

/-- The engines of all libraries. A request names the library whose engine is to answer it. -/
@[reducible] def Libraries : Interface := ⟨Library × Engine.Request, fun q => q.2.Reply⟩

/-- A dialogue with the engine of the library. -/
def Library.hold {α : Type} (l : Library) (d : Engine.Talk α) : Dialogue Libraries α :=
  d.via fun q => Dialogue.request (I := Libraries) (l, q)

/-- The dialogue as it is held where there is only one engine. -/
def Dialogue.unnamed {α : Type} (d : Dialogue Libraries α) : Engine.Talk α :=
  d.via fun q : Library × Engine.Request => Engine.ask q.2

end AudioFeatures
