import AudioFeatures.Proofs.Engine.ForeignText
import AudioFeatures.Proofs.Extractor.Results

/-! # Batches of any engine

An engine may hand over any names, any lengths and null pointers. The names alone decide whether a
batch can be decoded, and of each name the last result counts.
-/

namespace AudioFeatures

open Engine Text

variable {b : Batch} {x : Extractor} {r : RawExtraction} {es : List (String × Bytes)}
  {name : String} {e : Error}

namespace Engine.Batch

/-- The bytes of the name and of the value of a result. A null pointer has none. -/
def result (b : Batch) (i : Nat) : Bytes × Bytes :=
  (((b.names.bind fun names => names[i]?).join).getD [], b.bytesAt i)

def results (b : Batch) : List (Bytes × Bytes) := (List.range b.size).map b.result

/-- The names of all results are texts; these are their names and values. -/
def Holds (b : Batch) (es : List (String × Bytes)) : Prop :=
  b.results = es.map fun e => (Utf8.encode e.1, e.2)

theorem result_of_entry {i : Nat} {e : String × Bytes} (h : b.entry i = .ok e) :
    b.result i = (Utf8.encode e.1, e.2) := by
  rw [entry] at h
  split at h
  · cases h
  · obtain ⟨name, hname, h⟩ := bind_eq_ok_iff.1 h
    cases h
    rw [result, ForeignText.read_eq_ok_iff.1 hname]

theorem entry_eq_error {i : Nat} (hi : i < b.size) (h : b.entry i = .error e) :
    (∃ fault, e = .invalidString fault) ∧ ∀ name, (b.result i).1 ≠ Utf8.encode name := by
  rw [entry, if_neg (Nat.not_le.2 hi)] at h
  cases hread : ForeignText.read ((b.names.bind fun names => names[i]?).join) with
  | ok name =>
    rw [hread] at h
    cases h
  | error e' =>
    rw [hread] at h
    cases h
    obtain ⟨fault, rfl⟩ := ForeignText.exists_fault_of_read_eq_error hread
    refine ⟨⟨_, rfl⟩, fun name hname => ?_⟩
    cases (ForeignText.read_eq_ok_iff.2 hname).symm.trans hread

theorem holds_of_entries (h : b.entries = .ok es) : b.Holds es := by
  rw [Holds, results]
  exact map_eq_map_of_forall₂ ((forall₂_of_mapM h).imp fun _ _ => result_of_entry)

theorem entries_eq_error (h : b.entries = .error e) :
    (∃ fault, e = .invalidString fault) ∧
      ∃ result ∈ b.results, ∀ name, result.1 ≠ Utf8.encode name := by
  obtain ⟨i, hi, he⟩ := exists_of_mapM_eq_error h
  obtain ⟨hfault, hname⟩ := entry_eq_error (List.mem_range.1 hi) he
  exact ⟨hfault, b.result i, List.mem_map_of_mem hi, hname⟩

theorem Holds.forall_exists (h : b.Holds es) : ∀ result ∈ b.results, ∃ name,
    result.1 = Utf8.encode name := by
  intro result hresult
  rw [h] at hresult
  obtain ⟨e, -, rfl⟩ := List.mem_map.1 hresult
  exact ⟨e.1, rfl⟩

theorem encode_injective : Function.Injective fun e : String × Bytes => (Utf8.encode e.1, e.2) := by
  intro e e' h
  obtain ⟨hname, hbytes⟩ := Prod.mk.inj h
  exact Prod.ext (Utf8.encode_injective hname) hbytes

theorem Holds.unique {es' : List (String × Bytes)} (h : b.Holds es) (h' : b.Holds es') :
    es = es' := List.map_injective_iff.2 encode_injective (h.symm.trans h')

theorem exists_entries (h : ∀ result ∈ b.results, ∃ name, result.1 = Utf8.encode name) :
    ∃ es, b.entries = .ok es := by
  cases hentries : b.entries with
  | ok es => exact ⟨es, rfl⟩
  | error e =>
    obtain ⟨-, result, hresult, hname⟩ := entries_eq_error hentries
    obtain ⟨name, hn⟩ := h result hresult
    exact absurd hn (hname name)

theorem Holds.entries (h : b.Holds es) : b.entries = .ok es := by
  obtain ⟨es', hentries⟩ := exists_entries h.forall_exists
  rw [hentries, h.unique (holds_of_entries hentries)]

end Engine.Batch

/-- What becomes of a result: its bytes are decoded under the format of its feature. -/
def Decoded.ofResult (name : String) (format : Option String) (options : DecodeOptions)
    (bytes : Bytes) : Except Error Decoded :=
  match format with
  | some format => ofFormat format ⟨bytes, 0⟩ options
  | none => .error (.formatNotRecognized name)

namespace Extractor

/-- The features that results can be for. -/
def names (x : Extractor) : List String := x.slots.map (·.feature.name)

def format? (x : Extractor) (name : String) : Option String := (x.slot? name).bind Slot.format

/-- The value of a result, which no other result has a part in. -/
def valueOf (x : Extractor) (name : String) (bytes : Bytes) : Except Error Decoded :=
  Decoded.ofResult name (x.format? name) x.config.decode bytes

theorem slot?_eq_none_iff : x.slot? name = none ↔ name ∉ x.names := by
  simp [slot?, names]

theorem decode_of_slot? {slot : Slot} (h : x.slot? name = some slot) (bytes : Bytes) :
    slot.decode x.config.decode bytes = x.valueOf name bytes := by
  have hname : slot.feature.name = name := by simpa using List.find?_some h
  rw [valueOf, format?, h, Option.bind_some, Slot.decode, hname]
  rfl

end Extractor

namespace RawExtraction

open Extractor

/-- Results that were decoded have features, whatever the formats are. -/
theorem decodeEntries_eq_ok {decoded : List (String × Except Error Decoded)}
    (h : decodeEntries x es = .ok decoded) :
    (∀ e ∈ es, e.1 ∈ x.names) ∧ decoded = es.map fun e => (e.1, x.valueOf e.1 e.2) := by
  induction es generalizing decoded with
  | nil =>
    cases h
    exact ⟨nofun, rfl⟩
  | cons e es ih =>
    obtain ⟨name, bytes⟩ := e
    rw [decodeEntries] at h
    split at h
    · cases h
    case h_2 slot hslot =>
      have hname : name ∈ x.names := by
        by_contra hname
        cases hslot.symm.trans (slot?_eq_none_iff.2 hname)
      -- the value is kept, be it an error or not
      have hrest : (decodeEntries x es).map (fun es => (name, x.valueOf name bytes) :: es) =
          .ok decoded := by
        rw [decode_of_slot? hslot] at h
        split at h
        case h_1 e he =>
          split at h
          · cases h
          · rw [he]
            exact h
        case h_2 d hd =>
          rw [hd]
          exact h
      obtain ⟨rest, hes, rfl⟩ := map_eq_ok_iff.1 hrest
      obtain ⟨hnames, rfl⟩ := ih hes
      exact ⟨List.forall_mem_cons.2 ⟨hname, hnames⟩, rfl⟩

theorem holds_of_decode {results : Results} (h : r.decode = .ok results) : ∃ es,
    r.batch.Holds es ∧ (∀ e ∈ es, e.1 ∈ r.extractor.names) ∧
      results = .ofList (es.map fun e => (e.1, r.extractor.valueOf e.1 e.2)) := by
  obtain ⟨es, hentries, h⟩ := bind_eq_ok_iff.1 h
  obtain ⟨decoded, hdecoded, h⟩ := bind_eq_ok_iff.1 h
  cases h
  obtain ⟨hnames, rfl⟩ := decodeEntries_eq_ok hdecoded
  exact ⟨es, Batch.holds_of_entries hentries, hnames, rfl⟩

section

variable (hformats : ∀ slot ∈ x.slots, ∀ format ∈ slot.format, IsAscii format.toList)

include hformats

/-- The first result without a feature ends the decoding, and nothing else does. -/
theorem decodeEntries_eq (es : List (String × Bytes)) :
    decodeEntries x es = match (es.map (·.1)).find? (· ∉ x.names) with
      | some name => .error (.unknownResult name)
      | none => .ok (es.map fun e => (e.1, x.valueOf e.1 e.2)) := by
  induction es with
  | nil => rfl
  | cons e es ih =>
    obtain ⟨name, bytes⟩ := e
    cases hslot : x.slot? name with
    | none =>
      have hname : name ∉ x.names := slot?_eq_none_iff.1 hslot
      rw [decodeEntries, hslot, List.map_cons, List.find?_cons_of_pos (by simpa using hname)]
    | some slot =>
      have hname : name ∈ x.names := by
        by_contra hname
        cases hslot.symm.trans (slot?_eq_none_iff.2 hname)
      have hdecode : Recoverable (slot.decode x.config.decode bytes) :=
        Slot.recoverable_decode (hformats slot (List.mem_of_find?_eq_some hslot)) bytes
      rw [decodeEntries_cons hslot hdecode, ih, List.map_cons,
        List.find?_cons_of_neg (by simpa using hname), decode_of_slot? hslot]
      cases (es.map (·.1)).find? (· ∉ x.names) <;> rfl

end

section

variable (hformats : ∀ slot ∈ r.extractor.slots, ∀ format ∈ slot.format, IsAscii format.toList)

include hformats

theorem decode_of_holds (h : r.batch.Holds es) :
    r.decode = match (es.map (·.1)).find? (· ∉ r.extractor.names) with
      | some name => .error (.unknownResult name)
      | none => .ok (.ofList (es.map fun e => (e.1, r.extractor.valueOf e.1 e.2))) := by
  rw [decode, bytes, h.entries]
  simp only [bind, Except.bind, decodeEntries_eq hformats]
  cases (es.map (·.1)).find? (· ∉ r.extractor.names) <;> rfl

/-- Either some name is no text, or all names and values are known. -/
theorem decode_cases :
    ((∃ fault, r.decode = .error (.invalidString fault)) ∧
      ∃ result ∈ r.batch.results, ∀ name, result.1 ≠ Utf8.encode name) ∨
    ∃ es, r.batch.Holds es ∧
      r.decode = match (es.map (·.1)).find? (· ∉ r.extractor.names) with
        | some name => .error (.unknownResult name)
        | none => .ok (.ofList (es.map fun e => (e.1, r.extractor.valueOf e.1 e.2))) := by
  cases hentries : r.batch.entries with
  | error e =>
    obtain ⟨⟨fault, rfl⟩, hname⟩ := Batch.entries_eq_error hentries
    refine .inl ⟨⟨fault, ?_⟩, hname⟩
    rw [decode, bytes, hentries]
    rfl
  | ok es =>
    have hes := Batch.holds_of_entries hentries
    exact .inr ⟨es, hes, decode_of_holds hformats hes⟩

theorem exists_fault_iff : (∃ fault, r.decode = .error (.invalidString fault)) ↔
    ∃ result ∈ r.batch.results, ∀ name, result.1 ≠ Utf8.encode name := by
  rcases decode_cases hformats with ⟨hfault, hname⟩ | ⟨es, hes, hdecode⟩
  · exact iff_of_true hfault hname
  · refine iff_of_false ?_ ?_
    · rintro ⟨fault, hfault⟩
      rw [hdecode] at hfault
      split at hfault <;> cases hfault
    · rintro ⟨result, hresult, hname⟩
      obtain ⟨name, hn⟩ := hes.forall_exists result hresult
      exact hname name hn

theorem decode_eq_unknown_iff : r.decode = .error (.unknownResult name) ↔ ∃ es,
    r.batch.Holds es ∧ (es.map (·.1)).find? (· ∉ r.extractor.names) = some name := by
  constructor
  · intro h
    rcases decode_cases hformats with ⟨⟨fault, hfault⟩, -⟩ | ⟨es, hes, hdecode⟩
    · cases h.symm.trans hfault
    · rw [hdecode] at h
      split at h
      case h_1 hfind =>
        cases h
        exact ⟨es, hes, hfind⟩
      case h_2 => cases h
  · rintro ⟨es, hes, hfind⟩
    rw [decode_of_holds hformats hes, hfind]

theorem decode_eq_ok_iff {results : Results} : r.decode = .ok results ↔ ∃ es,
    r.batch.Holds es ∧ (∀ e ∈ es, e.1 ∈ r.extractor.names) ∧
      results = .ofList (es.map fun e => (e.1, r.extractor.valueOf e.1 e.2)) := by
  constructor
  · exact holds_of_decode
  · rintro ⟨es, hes, hnames, rfl⟩
    have hfind : (es.map (·.1)).find? (· ∉ r.extractor.names) = none := by simpa using hnames
    rw [decode_of_holds hformats hes, hfind]

theorem decode_eq_ok_of_perm {results : Results} (hnames : (b.results.map (·.1)).Nodup)
    (hperm : b.results.Perm r.batch.results) (h : r.decode = .ok results) :
    decode ⟨b, r.extractor⟩ = .ok results := by
  obtain ⟨es, hes, hes_names, rfl⟩ := (decode_eq_ok_iff hformats).1 h
  -- the names are the same texts, only in another order
  obtain ⟨es', hentries⟩ := Batch.exists_entries fun result hresult =>
    hes.forall_exists result (hperm.mem_iff.1 hresult)
  have hes' := Batch.holds_of_entries hentries
  have hperm' : es'.Perm es := by
    rw [Batch.Holds] at hes hes'
    rwa [hes, hes', List.map_perm_map_iff Batch.encode_injective] at hperm
  have hnodup : (es'.map (·.1)).Nodup := by
    rw [hes', List.map_map] at hnames
    refine .of_map Utf8.encode ?_
    rwa [List.map_map]
  refine (decode_eq_ok_iff (r := ⟨b, r.extractor⟩) hformats).2
    ⟨es', hes', fun e he => hes_names e (hperm'.mem_iff.1 he), ?_⟩
  refine Dict.ofList_eq_of_perm ?_ (hperm'.symm.map _)
  rwa [List.map_map]

end

/-- The names decide whether a batch is decoded as a whole. Then each name has the value of its last
result, which depends on nothing but this result, the format of the feature and the options. -/
theorem decode_outcome (r : RawExtraction)
    (hformats : ∀ slot ∈ r.extractor.slots, ∀ format ∈ slot.format, IsAscii format.toList) :
    ((∃ fault, r.decode = .error (.invalidString fault)) ↔
      ∃ result ∈ r.batch.results, ∀ name, result.1 ≠ Utf8.encode name) ∧
    (∀ name, r.decode = .error (.unknownResult name) ↔ ∃ es, r.batch.Holds es ∧
      (es.map (·.1)).find? (· ∉ r.extractor.names) = some name) ∧
    (∀ es, r.batch.Holds es → (∀ e ∈ es, e.1 ∈ r.extractor.names) →
      ∃ results, r.decode = .ok results ∧ ∀ name,
        results.get? name = (es.reverse.lookup name).map (r.extractor.valueOf name)) ∧
    ∀ (b : Batch) (results : Results), (b.results.map (·.1)).Nodup →
      b.results.Perm r.batch.results → r.decode = .ok results →
      decode ⟨b, r.extractor⟩ = .ok results := by
  refine ⟨exists_fault_iff hformats, fun name => decode_eq_unknown_iff hformats,
    fun es hes hnames => ?_, fun b results => decode_eq_ok_of_perm hformats⟩
  refine ⟨_, (decode_eq_ok_iff hformats).2 ⟨es, hes, hnames, rfl⟩, fun name => ?_⟩
  rw [Dict.get?_ofList, ← List.map_reverse, Dict.lookup_map]

end RawExtraction

/-! ## A name that is repeated and a value that cannot be decoded -/

namespace Gauges

def opened : Extractor := { Levels.opened with
  slots := [⟨⟨"Loud", [Levels.level]⟩, "Loud [Level]", some "int"⟩,
    ⟨⟨"Quiet", [Levels.level]⟩, "Quiet [Level]", none⟩] }

/-- A batch under the same names, with a null pointer for the bytes of the second feature. -/
def batch (names : List String) (values : List (Option Bytes)) (lengths : List Int32) : Batch where
  names := some (names.map fun name => some (Utf8.encode name))
  values := some values
  lengths := some lengths
  count := Int32.ofNat names.length

def listed : Batch := batch ["Loud", "Quiet"] [some [1, 0, 0, 0], none] [4, 7]

def swapped : Batch := batch ["Quiet", "Loud"] [none, some [1, 0, 0, 0]] [-1, 4]

def repeated : Batch :=
  batch ["Loud", "Quiet", "Loud"] [some [2, 0, 0, 0], none, some [1, 0, 0, 0]] [4, 7, 4]

end Gauges

open Gauges RawExtraction in
/-- Of the repeated name the last value is taken, and the order of the names has no effect. -/
theorem RawExtraction.decode_outcome_repeated :
    (∃ results, decode ⟨repeated, opened⟩ = .ok results ∧
      results.get? "Loud" = some (.ok ⟨.scalar ⟨.int32, 1⟩, none, []⟩) ∧
      results.get? "Quiet" = some (.error (.formatNotRecognized "Quiet"))) ∧
    ∃ results, decode ⟨listed, opened⟩ = .ok results ∧ decode ⟨swapped, opened⟩ = .ok results := by
  have hformats : ∀ slot ∈ opened.slots, ∀ format ∈ slot.format, IsAscii format.toList := by
    decide
  constructor
  · obtain ⟨-, -, hdecode, -⟩ := decode_outcome ⟨repeated, opened⟩ hformats
    obtain ⟨results, hresults, hget⟩ :=
      hdecode [("Loud", [2, 0, 0, 0]), ("Quiet", []), ("Loud", [1, 0, 0, 0])] (by cbv) (by decide)
    refine ⟨results, hresults, (hget "Loud").trans ?_, (hget "Quiet").trans ?_⟩ <;> cbv
  · obtain ⟨-, -, hdecode, hperm⟩ := decode_outcome ⟨listed, opened⟩ hformats
    obtain ⟨results, hresults, -⟩ :=
      hdecode [("Loud", [1, 0, 0, 0]), ("Quiet", [])] (by cbv) (by decide)
    exact ⟨results, hresults, hperm swapped results (by decide) (by decide) hresults⟩

end AudioFeatures
