import AudioFeatures.Engine.Accounted
import AudioFeatures.Proofs.Dict
import AudioFeatures.Proofs.Fallible
import AudioFeatures.Proofs.Text.Utf8

/-! # What accounted engines hand over

Nothing that is asked of the engine changes its outputs, or the features of an earlier setup. While
it is not made to fail, every extraction reports each of these features with its output.
-/

namespace AudioFeatures.Engine

theorem lengthOf_ofNat {n : Nat} (h : n < 2 ^ 31) : lengthOf (Int32.ofNat n) = n := by
  rw [lengthOf, Int32.toInt_ofNat_of_lt h, Int.toNat_natCast]

namespace Scripted

theorem distinct_concat (names : List String) (name : String) : distinct (names ++ [name]) =
    if name ∈ distinct names then distinct names else distinct names ++ [name] := by
  simp [distinct, List.foldl_append]

theorem distinct_of_nodup {names : List String} (h : names.Nodup) : distinct names = names := by
  induction names using List.reverseRecOn with
  | nil => rfl
  | append_singleton names name ih =>
    obtain ⟨hnames, -, hne⟩ := List.nodup_append.1 h
    have hnew : name ∉ names := fun hm => hne name hm name (List.mem_singleton_self name) rfl
    rw [distinct_concat, ih hnames, if_neg hnew]

theorem mem_distinct {key : String} {names : List String} :
    key ∈ distinct names ↔ key ∈ names := by
  induction names using List.reverseRecOn with
  | nil => rfl
  | append_singleton names name ih =>
    rw [distinct_concat, List.mem_append, ← ih, List.mem_singleton]
    split
    case isTrue hname =>
      constructor
      · exact Or.inl
      · rintro (h | rfl)
        · exact h
        · exact hname
    case isFalse => rw [List.mem_append, List.mem_singleton]

theorem nodup_distinct (names : List String) : (distinct names).Nodup := by
  induction names using List.reverseRecOn with
  | nil => exact List.nodup_nil
  | append_singleton names name ih =>
    rw [distinct_concat]
    split
    case isTrue => exact ih
    case isFalse hname =>
      refine List.nodup_append.2 ⟨ih, List.nodup_singleton _, ?_⟩
      rintro key hkey other hother rfl
      rw [List.mem_singleton] at hother
      exact hname (hother ▸ hkey)

theorem length_distinct (names : List String) :
    (distinct names).length = names.dedup.length := by
  have hperm : (distinct names).Perm names.dedup :=
    (List.perm_ext_iff_of_nodup (nodup_distinct names) names.nodup_dedup).2 fun _ =>
      mem_distinct.trans List.mem_dedup.symm
  exact hperm.length_eq

/-- As many names are left as there were if no name is repeated. -/
theorem length_distinct_eq_iff {names : List String} :
    (distinct names).length = names.length ↔ names.Nodup := by
  rw [length_distinct, ← List.dedup_eq_self]
  exact ⟨(List.dedup_sublist names).eq_of_length, congrArg List.length⟩

end Scripted

namespace Accounted

variable {s t u : State} {α : Type}

/-- The engine was asked something in between. -/
structure Follows (s t : State) : Prop where
  faults : t.faults = s.faults
  outputs : t.outputs = s.outputs
  configurations : s.configurations <+: t.configurations

theorem Follows.refl (s : State) : Follows s s := ⟨rfl, rfl, List.prefix_rfl⟩

theorem Follows.trans (h : Follows s t) (h' : Follows t u) : Follows s u :=
  ⟨h'.faults.trans h.faults, h'.outputs.trans h.outputs, h.configurations.trans h'.configurations⟩

/-- A configuration keeps its features. -/
theorem Follows.configuration {i : Nat} {features : List String} (h : Follows s t)
    (hi : s.configurations[i]? = some features) : t.configurations[i]? = some features := by
  obtain ⟨later, hlater⟩ := h.configurations
  rw [← hlater, List.getElem?_append_left (List.getElem?_eq_some_iff.1 hi).1, hi]

theorem follows_reply (q : Request) (s : State) : Follows s (reply q s).2 := by
  cases q with
  | setup pipelines =>
    unfold reply
    dsimp only
    split
    · exact ⟨rfl, rfl, List.prefix_rfl⟩
    · exact ⟨rfl, rfl, List.prefix_append _ _⟩
  | reportGraph c path =>
    unfold reply
    dsimp only
    split <;> exact ⟨rfl, rfl, List.prefix_rfl⟩
  | _ => exact ⟨rfl, rfl, List.prefix_rfl⟩

theorem follows_run (d : Talk α) (s : State) : Follows s (d.run engine s).state := by
  induction d generalizing s with
  | done a => exact .refl s
  | ask q next ih => exact (follows_reply q s).trans (ih _ _)
  | log line next ih => exact ih s

/-- A setup that does not fail adds a configuration. -/
theorem run_setup (h : s.faults = []) (pipelines : List String) (bufferSize : UInt64)
    (samplingRate : Int32) :
    let o := (ask (.setup pipelines bufferSize samplingRate)).run engine s
    o.value = some ⟨s.configurations.length⟩ ∧ o.state.configurations =
      s.configurations ++ [Scripted.distinct (pipelines.map Scripted.featureName)] := by
  simp [ask, Dialogue.request, Dialogue.run, reply, State.has, h, State.acquire]

/-- The bytes of a feature, none if the engine was given none. -/
def State.output (s : State) (feature : String) : Bytes := (s.outputs.get? feature).getD []

theorem Follows.output (h : Follows s t) (feature : String) :
    t.output feature = s.output feature := by
  rw [State.output, State.output, h.outputs]

theorem length_output (h : ∀ e ∈ s.outputs.entries, e.2.length < 2 ^ 31) (feature : String) :
    (s.output feature).length < 2 ^ 31 := by
  rw [State.output]
  cases hget : s.outputs.get? feature with
  | none => simp
  | some bytes => exact h _ (Dict.get?_eq_some_iff.1 hget)

theorem status_of_faultless (h : s.faults = []) : status s = 0 := by
  rw [status, h]
  rfl

/-- An extraction that does not fail hands over the batch of its configuration. -/
theorem value_extract {c : Configuration} {features : List String} (h : s.faults = [])
    (hc : s.configurations[c.id]? = some features) (samples : List Int16) (count : Int32) :
    ((ask (.extract c samples count)).run engine s).value = ⟨0, batch s features, []⟩ := by
  simp [ask, Dialogue.request, Dialogue.run, reply, status_of_faultless h, List.getD, hc]

theorem read_foreign (name : String) : (foreign name).read = .ok name := by
  rw [foreign, ForeignText.read, Text.Utf8.decode_encode]
  rfl

theorem batch_of_faultless (h : s.faults = []) (features : List String) : batch s features = {
    names := some (features.map foreign)
    values := some (features.map fun name => some (s.output name))
    lengths := some (features.map fun name => Int32.ofNat (s.output name).length)
    count := Int32.ofNat features.length } := by
  simp [batch, State.has, h, State.output, Function.comp_def]

/-- A batch has one result for each feature of the setup. -/
theorem size_batch {features : List String} (h : s.faults = [])
    (hcount : features.length < 2 ^ 31) : (batch s features).size = features.length := by
  rw [batch_of_faultless h, Batch.size, lengthOf_ofNat hcount]

/-- Each feature of a setup is reported once, with its output. -/
theorem entries_batch {features : List String} (hfaults : s.faults = [])
    (houtputs : ∀ e ∈ s.outputs.entries, e.2.length < 2 ^ 31) (hcount : features.length < 2 ^ 31) :
    (batch s features).entries = .ok (features.map fun name => (name, s.output name)) := by
  have hbatch := batch_of_faultless hfaults features
  have hsize := size_batch hfaults hcount
  have hentry (i : Nat) (hi : i < features.length) :
      (batch s features).entry i = .ok (features[i], s.output features[i]) := by
    have hbytes : (batch s features).bytesAt i = s.output features[i] := by
      simp [hbatch, Batch.bytesAt, hi, lengthOf_ofNat (length_output houtputs features[i])]
    have hname : ((batch s features).names.bind fun names => names[i]?).join =
        foreign features[i] := by
      simp [hbatch, hi]
    rw [Batch.entry, hsize, if_neg (Nat.not_le.2 hi), hname, read_foreign, hbytes]
    rfl
  have hmap : features.length = (features.map fun name => (name, s.output name)).length := by simp
  rw [Batch.entries, hsize, hmap]
  exact mapM_range_eq_ok fun i hi => by rw [hentry i (hmap ▸ hi), List.getElem_map]

end Accounted

end AudioFeatures.Engine
