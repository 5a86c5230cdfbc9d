import AudioFeatures.Catalog.Json
import AudioFeatures.Proofs.Dict
import AudioFeatures.Proofs.Json.Records

/-! # Catalogs read back

A catalog is written as two dictionaries. Each member of the first is read as the description that
the catalog has under that name, and each member of the second as the outputs for that input. Hence
the text determines the catalog, whatever the names, descriptions and formats in it are.
-/

namespace AudioFeatures

open Json

/-! ## Dictionaries as members -/

namespace Json

variable {α : Type} {read : Json → Option α} {write : α → Json} {members : List (String × Json)}
  {d e : Dict α}

@[simp] theorem ofMembers_inj {ms ns : List (String × Json)} :
    ofMembers ms = ofMembers ns ↔ ms = ns := by
  have hinjective : Function.Injective fun m : String × Json => (some m.1, m.2) :=
    fun m n h => Prod.ext (Option.some.inj (congrArg Prod.fst h)) (congrArg (·.2) h)
  rw [ofMembers, ofMembers, object.injEq, hinjective.list_map.eq_iff]

/-- The members stand for the entries: they have the names of the entries, in their order, and each
is read as the value under its name. -/
structure Lists (read : Json → Option α) (members : List (String × Json)) (d : Dict α) :
    Prop where
  names : members.map (·.1) = d.names
  values : ∀ m ∈ members, ∃ a, read m.2 = some a ∧ d.get? m.1 = some a

theorem Lists.subset (h : Lists read members d) (h' : Lists read members e) : d ⊆ e := by
  intro name value hvalue
  have hname : name ∈ d.names := List.mem_map.2 ⟨_, Dict.get?_eq_some_iff.1 hvalue, rfl⟩
  rw [← h.names] at hname
  obtain ⟨m, hm, rfl⟩ := List.mem_map.1 hname
  obtain ⟨a, hread, ha⟩ := h.values m hm
  obtain ⟨b, hread', hb⟩ := h'.values m hm
  obtain rfl : a = value := Option.some.inj (ha.symm.trans hvalue)
  obtain rfl : b = a := Option.some.inj (hread'.symm.trans hread)
  exact hb

/-- Members stand for one dictionary at most. -/
theorem Lists.eq (h : Lists read members d) (h' : Lists read members e) : d = e :=
  Dict.ext_get? fun name => Option.ext fun value =>
    ⟨h.subset h' name value, h'.subset h name value⟩

theorem lists_entries (h : ∀ a, read (write a) = some a) (d : Dict α) :
    Lists read (d.entries.map fun e => (e.1, write e.2)) d := by
  constructor
  case names => rw [List.map_map]; rfl
  case values =>
    intro m hm
    obtain ⟨e, he, rfl⟩ := List.mem_map.1 hm
    exact ⟨e.2, h e.2, Dict.get?_eq_some_iff.2 he⟩

theorem toDict?_ofDict (h : ∀ a, read (write a) = some a) (d : Dict α) :
    toDict? read (ofDict write d) = some d := by
  have hentries : (d.entries.map fun e => (some e.1, write e.2)).mapM
      (fun m : Option String × Json => do return (← m.1, ← read m.2)) = some d.entries := by
    rw [List.mapM_map]
    refine (mapM_of_forall_eq_some (g := id) fun e _ => ?_).trans (by rw [List.map_id])
    simp [h]
  rw [ofDict, ofMembers, List.map_map, toDict?]
  exact (congrArg (· >>= fun es => some (Dict.ofList es)) hentries).trans
    (congrArg some d.ofList_entries)

theorem toList?_array (h : ∀ a, read (write a) = some a) (as : List α) :
    toList? read (.array (as.map write)) = some as := by
  rw [toList?, List.mapM_map]
  exact (mapM_of_forall_eq_some (g := id) fun a _ => h a).trans (by rw [List.map_id])

theorem Plain.ofDict (h : ∀ a, Plain (write a)) (d : Dict α) : Plain (ofDict write d) := by
  refine .ofMembers fun m hm => ?_
  obtain ⟨e, -, rfl⟩ := List.mem_map.1 hm
  exact h e.2

end Json

/-! ## Descriptions -/

namespace Parameter

def jsonFields (p : Parameter) : List Field := [
    ⟨"name", .text p.name, false⟩, ⟨"description", .text p.description, false⟩,
    ⟨"default_value", .text p.defaultValue, false⟩]

theorem toJson_eq (p : Parameter) : p.toJson = ofFields (fun _ => false) p.jsonFields := by
  simp [toJson, jsonFields]

theorem ofJson?_toJson (p : Parameter) : ofJson? p.toJson = some p := by
  have hrecord : p.toJson.record? ["name", "description", "default_value"] =
      some (p.jsonFields.map (·.found? fun _ => false)) :=
    p.toJson_eq ▸ record?_ofFields (by simp [jsonFields])
  rw [ofJson?, hrecord]
  simp only [jsonFields, List.map_cons, List.map_nil, Option.bind_eq_bind, Option.bind_some]
  rw [required_found? (toText?_text p.name), Option.bind_some,
    required_found? (toText?_text p.description), Option.bind_some,
    required_found? (toText?_text p.defaultValue)]
  rfl

theorem plain_toJson (p : Parameter) : Plain p.toJson := by
  rw [toJson_eq]
  refine plain_ofFields fun f hf => ?_
  simp only [jsonFields, List.mem_cons, List.not_mem_nil, or_false] at hf
  rcases hf with rfl | rfl | rfl <;> exact .text _

end Parameter

namespace Transform

/-- The fields; all but the name may be left out where they are empty. -/
def jsonFields (t : Transform) : List Field := [
    ⟨"name", .text t.name, false⟩, ⟨"description", .text t.description, t.description = ""⟩,
    ⟨"supported_parameters", .ofDict Parameter.toJson t.supportedParameters,
      t.supportedParameters = ∅⟩,
    ⟨"parameters", .ofDict Json.text t.parameters, t.parameters = ∅⟩,
    ⟨"input_format", .text t.inputFormat, t.inputFormat = ""⟩,
    ⟨"output_format", .text t.outputFormat, t.outputFormat = ""⟩,
    ⟨"condition", .ofOption Json.text t.condition, t.condition = none⟩]

/-- Only a condition is ever left out. -/
theorem toJson_eq (t : Transform) : t.toJson = ofFields (· == "condition") t.jsonFields := by
  cases hc : t.condition <;>
    simp [toJson, jsonFields, ofFields, Field.isOmitted, hc, Json.ofOption]

/-- A description is read from its fields, whichever of those with default values are left out. -/
theorem ofJson?_ofFields (t : Transform) (leaveOut : String → Bool) :
    ofJson? (ofFields leaveOut t.jsonFields) = some t := by
  have hrecord : (ofFields leaveOut t.jsonFields).record? fields =
      some (t.jsonFields.map (·.found? leaveOut)) :=
    record?_ofFields (by simp [jsonFields])
  have hsupported := toDict?_ofDict Parameter.ofJson?_toJson t.supportedParameters
  have hparameters := toDict?_ofDict toText?_text t.parameters
  rw [ofJson?, hrecord]
  simp only [jsonFields, List.map_cons, List.map_nil, Option.bind_eq_bind, Option.bind_some]
  rw [required_found? (toText?_text t.name), Option.bind_some,
    withDefault_found? (toText?_text t.description) of_decide_eq_true, Option.bind_some,
    withDefault_found? hsupported of_decide_eq_true, Option.bind_some,
    withDefault_found? hparameters of_decide_eq_true, Option.bind_some,
    withDefault_found? (toText?_text t.inputFormat) of_decide_eq_true, Option.bind_some,
    withDefault_found? (toText?_text t.outputFormat) of_decide_eq_true, Option.bind_some,
    withDefault_found? (toOption?_ofOption toText?_text rfl t.condition) of_decide_eq_true]
  rfl

theorem ofJson?_toJson (t : Transform) : ofJson? t.toJson = some t := by
  rw [toJson_eq, ofJson?_ofFields]

theorem plain_toJson (t : Transform) : Plain t.toJson := by
  rw [toJson_eq]
  refine plain_ofFields fun f hf => ?_
  simp only [jsonFields, List.mem_cons, List.not_mem_nil, or_false] at hf
  rcases hf with rfl | rfl | rfl | rfl | rfl | rfl | rfl
  · exact .text _
  · exact .text _
  · exact .ofDict Parameter.plain_toJson _
  · exact .ofDict .text _
  · exact .text _
  · exact .text _
  · exact .ofOption .text _

end Transform

/-! ## Catalogs -/

namespace Catalog

variable {c d : Catalog} {j : Json}

/-- The value is an object whose two members stand for the entries of the catalog. -/
def DescribedBy (c : Catalog) (j : Json) : Prop :=
  ∃ transforms converters, j = .ofMembers [
      ("transforms", .ofMembers transforms), ("format_converters", .ofMembers converters)] ∧
    Lists Transform.ofJson? transforms c.transforms ∧
    Lists (toList? toText?) converters c.converters

theorem describedBy_toJson (c : Catalog) : c.DescribedBy c.toJson :=
  ⟨_, _, rfl, lists_entries Transform.ofJson?_toJson c.transforms,
    lists_entries (toList?_array toText?_text) c.converters⟩

theorem DescribedBy.eq (h : c.DescribedBy j) (h' : d.DescribedBy j) : c = d := by
  obtain ⟨transforms, converters, rfl, htransforms, hconverters⟩ := h
  obtain ⟨transforms', converters', hj, htransforms', hconverters'⟩ := h'
  obtain ⟨rfl, rfl⟩ : transforms = transforms' ∧ converters = converters' := by simpa using hj
  cases c
  cases d
  rw [mk.injEq]
  exact ⟨htransforms.eq htransforms', hconverters.eq hconverters'⟩

theorem plain_toJson (c : Catalog) : Plain c.toJson := by
  refine .ofMembers fun m hm => ?_
  simp only [List.mem_cons, List.not_mem_nil, or_false] at hm
  rcases hm with rfl | rfl
  · exact .ofDict Transform.plain_toJson _
  · refine .ofDict (fun outputs => .array fun j hj => ?_) _
    obtain ⟨output, -, rfl⟩ := List.mem_map.1 hj
    exact .text output

/-- The text of a catalog is read as a value that describes the catalog. No other catalog has that
text. -/
theorem jsonText_describes :
    (∀ c : Catalog, ∃ j, read? c.jsonText = some j ∧ c.DescribedBy j) ∧
      Function.Injective jsonText := by
  have hread (c : Catalog) : read? c.jsonText = some c.toJson := read?_pretty c.plain_toJson
  refine ⟨fun c => ⟨c.toJson, hread c, c.describedBy_toJson⟩, fun c d h => ?_⟩
  have hj : c.toJson = d.toJson := by
    rw [← Option.some_inj, ← hread, ← hread, h]
  exact c.describedBy_toJson.eq (hj ▸ d.describedBy_toJson)

example : jsonText (ofParts [] [("Raw<short>", "Raw<float>")]) =
    "\x7b\n  \"transforms\": \x7b\x7d,\n  \"format_converters\": \x7b\n" ++
      "    \"Raw<short>\": [\n      \"Raw<float>\"\n    ]\n  \x7d\n\x7d" := by
  cbv

end Catalog

end AudioFeatures
