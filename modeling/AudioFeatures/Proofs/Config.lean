import AudioFeatures.Config
import AudioFeatures.Proofs.Json.Records

/-! # Configurations read back

A configuration is read from its written form, also where some of the fields that have their default
values are left out, be it at the top or in the records within.
-/

namespace AudioFeatures

open Json

theorem MismatchPolicy.ofJson?_name (p : MismatchPolicy) : ofJson? (.text p.name) = some p := by
  cases p <;> rfl

theorem RowRule.ofJson?_name (r : RowRule) : ofJson? (.text r.name) = some r := by
  cases r <;> rfl

namespace DecodeOptions

/-- The fields as they are written. -/
def jsonFields (o : DecodeOptions) : List Field := [
    ⟨"size_mismatch", .text o.policy.name, o.policy = .warn⟩,
    ⟨"fixed_array_rule", .text o.rule.name, o.rule = .multipleOf⟩]

theorem ofJson?_ofFields (o : DecodeOptions) (leaveOut : String → Bool) :
    ofJson? (ofFields leaveOut o.jsonFields) = some o := by
  have hrecord : (ofFields leaveOut o.jsonFields).record? ["size_mismatch", "fixed_array_rule"] =
      some (o.jsonFields.map (·.found? leaveOut)) :=
    record?_ofFields (by simp [jsonFields])
  rw [ofJson?, hrecord]
  simp only [jsonFields, List.map_cons, List.map_nil, Option.bind_eq_bind, Option.bind_some]
  rw [withDefault_found? (MismatchPolicy.ofJson?_name o.policy) of_decide_eq_true,
    Option.bind_some, withDefault_found? (RowRule.ofJson?_name o.rule) of_decide_eq_true]
  rfl

theorem plain_ofFields (o : DecodeOptions) (leaveOut : String → Bool) :
    Plain (ofFields leaveOut o.jsonFields) := by
  refine Json.plain_ofFields fun f hf => ?_
  simp only [jsonFields, List.mem_cons, List.not_mem_nil, or_false] at hf
  rcases hf with rfl | rfl <;> exact .text _

end DecodeOptions

namespace Tunables

def jsonFields (t : Tunables) : List Field := [
    ⟨"max_threads", .ofOption (fun n => .int n.toInt) t.maxThreads, t.maxThreads = none⟩,
    ⟨"use_simd", .ofOption Json.bool t.useSimd, t.useSimd = none⟩,
    ⟨"cpu_cache_size", .ofOption (fun n => .nat n.toNat) t.cpuCacheSize, t.cpuCacheSize = none⟩,
    ⟨"chunk_size", .ofOption (fun n => .nat n.toNat) t.chunkSize, t.chunkSize = none⟩]

theorem ofJson?_ofFields (t : Tunables) (leaveOut : String → Bool) :
    ofJson? (ofFields leaveOut t.jsonFields) = some t := by
  have hrecord : (ofFields leaveOut t.jsonFields).record?
      ["max_threads", "use_simd", "cpu_cache_size", "chunk_size"] =
        some (t.jsonFields.map (·.found? leaveOut)) :=
    record?_ofFields (by simp [jsonFields])
  have hbool (b : Bool) : toBool? (.bool b) = some b := rfl
  rw [ofJson?, hrecord]
  simp only [jsonFields, List.map_cons, List.map_nil, Option.bind_eq_bind, Option.bind_some]
  rw [withDefault_found? (toOption?_ofOption toInt32?_int rfl t.maxThreads) of_decide_eq_true,
    Option.bind_some,
    withDefault_found? (toOption?_ofOption hbool rfl t.useSimd) of_decide_eq_true,
    Option.bind_some,
    withDefault_found? (toOption?_ofOption toUInt64?_nat rfl t.cpuCacheSize) of_decide_eq_true,
    Option.bind_some,
    withDefault_found? (toOption?_ofOption toUInt64?_nat rfl t.chunkSize) of_decide_eq_true]
  rfl

theorem plain_ofFields (t : Tunables) (leaveOut : String → Bool) :
    Plain (ofFields leaveOut t.jsonFields) := by
  refine Json.plain_ofFields fun f hf => ?_
  simp only [jsonFields, List.mem_cons, List.not_mem_nil, or_false] at hf
  rcases hf with rfl | rfl | rfl | rfl
  · exact .ofOption (fun n : Int32 => .int n.toInt) _
  · exact .ofOption .bool _
  · exact .ofOption (fun n : UInt64 => .natural n.toNat) _
  · exact .ofOption (fun n : UInt64 => .natural n.toNat) _

end Tunables

namespace Config

/-- The names of the fields that are to be left out, by the record that they are in. -/
structure Omission where
  /-- Those of the configuration itself. -/
  top : String → Bool := fun _ => false
  decode : String → Bool := fun _ => false
  tunables : String → Bool := fun _ => false

def jsonFields (o : Omission) (c : Config) : List Field := [
    ⟨"library_path", .text c.libraryPath, c.libraryPath = defaultLibraryPath⟩,
    ⟨"buffer_size", .nat c.bufferSize.toNat, false⟩,
    ⟨"sampling_rate", .nat c.samplingRate.toNat, false⟩,
    ⟨"channels", .nat c.channels.toNat, c.channels = 1⟩,
    ⟨"decode", ofFields o.decode c.decode.jsonFields, c.decode = {}⟩,
    ⟨"tunables", ofFields o.tunables c.tunables.jsonFields, c.tunables = {}⟩]

/-- The written form without the fields to be left out, as far as they have their default values. -/
def toJsonWithout (o : Omission) (c : Config) : Json := ofFields o.top (c.jsonFields o)

theorem toJsonWithout_nothing (c : Config) : c.toJsonWithout {} = c.toJson := by
  simp [toJsonWithout, jsonFields, toJson, DecodeOptions.jsonFields, DecodeOptions.toJson,
    Tunables.jsonFields, Tunables.toJson]

theorem ofJson?_toJsonWithout (c : Config) (o : Omission) :
    ofJson? (c.toJsonWithout o) = some c := by
  have hrecord : (c.toJsonWithout o).record? fields =
      some ((c.jsonFields o).map (·.found? o.top)) :=
    record?_ofFields (by simp [jsonFields])
  rw [ofJson?, hrecord]
  simp only [jsonFields, List.map_cons, List.map_nil, Option.bind_eq_bind, Option.bind_some]
  rw [withDefault_found? (toText?_text c.libraryPath) of_decide_eq_true, Option.bind_some,
    required_found? (toUInt64?_nat c.bufferSize), Option.bind_some,
    required_found? (toUInt32?_nat c.samplingRate), Option.bind_some,
    withDefault_found? (toUInt32?_nat c.channels) of_decide_eq_true, Option.bind_some,
    withDefault_found? (c.decode.ofJson?_ofFields o.decode) of_decide_eq_true, Option.bind_some,
    withDefault_found? (c.tunables.ofJson?_ofFields o.tunables) of_decide_eq_true]
  rfl

theorem plain_toJsonWithout (c : Config) (o : Omission) : Plain (c.toJsonWithout o) := by
  refine plain_ofFields fun f hf => ?_
  simp only [jsonFields, List.mem_cons, List.not_mem_nil, or_false] at hf
  rcases hf with rfl | rfl | rfl | rfl | rfl | rfl
  · exact .text _
  · exact .natural _
  · exact .natural _
  · exact .natural _
  · exact c.decode.plain_ofFields _
  · exact c.tunables.plain_ofFields _

/-- A configuration is read from its written form, on one line or on several, whichever of the
fields with default values are left out. With nothing left out this is the form in which it is
written. -/
theorem parse_written (c : Config) (o : Omission) :
    parse (c.toJsonWithout o).compact = .ok c ∧ parse (c.toJsonWithout o).pretty = .ok c ∧
      c.toJsonWithout {} = c.toJson := by
  have hparse {s : String} (h : read? s = some (c.toJsonWithout o)) : parse s = .ok c := by
    rw [parse, h, Option.bind_eq_bind, Option.bind_some, ofJson?_toJsonWithout]
  have hplain := c.plain_toJsonWithout o
  exact ⟨hparse (read?_compact hplain), hparse (read?_pretty hplain), c.toJsonWithout_nothing⟩

example : ((ofSize 512 16000).toJsonWithout ⟨fun _ => true, fun _ => true, fun _ => true⟩).compact =
    "\x7b\"buffer_size\":512,\"sampling_rate\":16000\x7d" := by cbv

end Config

end AudioFeatures
