import AudioFeatures.Dict
import Mathlib

/-! # Dictionaries by their values

A dictionary is determined by the values that it has for names. Built from a list it has the last
value that the list gives for a name, and where no name is repeated its entries are those of the
list.
-/

namespace AudioFeatures.Dict

variable {α : Type} {d e : Dict α} {es : List (String × α)} {name : String} {value : α}

theorem nodup_names (d : Dict α) : d.names.Nodup :=
  (List.pairwise_map.2 d.ascending).imp fun h => String.ne_of_lt h

theorem get?_eq_some_iff : d.get? name = some value ↔ (name, value) ∈ d.entries := by
  rw [get?, Option.map_eq_some_iff]
  constructor
  · rintro ⟨e, he, rfl⟩
    obtain rfl : e.1 = name := by simpa using List.find?_some he
    exact List.mem_of_find?_eq_some he
  · intro h
    obtain ⟨e, he⟩ : ∃ e, (d.entries.find? fun e => e.1 == name) = some e :=
      Option.isSome_iff_exists.1 (List.find?_isSome.2 ⟨_, h, by simp⟩)
    have hname : e.1 = name := by simpa using List.find?_some he
    -- no other entry has the name
    have : e = (name, value) :=
      List.inj_on_of_nodup_map d.nodup_names (List.mem_of_find?_eq_some he) h hname
    exact ⟨e, he, by rw [this]⟩

/-- What the first has for a name, the second has for it too. -/
instance : HasSubset (Dict α) :=
  ⟨fun d e => ∀ name value, d.get? name = some value → e.get? name = some value⟩

theorem subset_iff : d ⊆ e ↔ d.entries ⊆ e.entries := by
  constructor
  · intro h x hx
    exact get?_eq_some_iff.1 (h x.1 x.2 (get?_eq_some_iff.2 hx))
  · intro h name value hvalue
    exact get?_eq_some_iff.2 (h (get?_eq_some_iff.1 hvalue))

/-- Dictionaries with the same values are equal. -/
theorem ext_get? (h : ∀ name, d.get? name = e.get? name) : d = e := by
  have hmem (x : String × α) : x ∈ d.entries ↔ x ∈ e.entries := by
    rw [← get?_eq_some_iff, ← get?_eq_some_iff, h]
  have hperm : d.entries.Perm e.entries :=
    (List.perm_ext_iff_of_nodup d.nodup_names.of_map e.nodup_names.of_map).2 hmem
  refine ext (hperm.eq_of_pairwise (fun x y _ _ hxy hyx => ?_) d.ascending e.ascending)
  exact absurd hyx (String.lt_asymm hxy)

theorem get?_foldl_insert (es : List (String × α)) (d : Dict α) (name : String) :
    (es.foldl (fun d e => d.insert e.1 e.2) d).get? name =
      (es.reverse.lookup name).or (d.get? name) := by
  induction es generalizing d with
  | nil => rfl
  | cons e es ih =>
    obtain ⟨n, value⟩ := e
    rw [List.foldl_cons, ih, get?_insert, List.reverse_cons, List.lookup_append]
    by_cases hn : n = name
    · simp [hn]
    · have hne : (name == n) = false := by simpa using Ne.symm hn
      simp [hn, List.lookup_cons, hne]

/-- The last value that a list gives for a name counts. -/
theorem get?_ofList (es : List (String × α)) (name : String) :
    (ofList es).get? name = es.reverse.lookup name := by
  rw [ofList, get?_foldl_insert, get?_empty, Option.or_none]

theorem mem_of_mem_ofList {x : String × α} (h : x ∈ (ofList es).entries) : x ∈ es := by
  have hget : (ofList es).get? x.1 = some x.2 := get?_eq_some_iff.2 h
  rw [get?_ofList, List.lookup_eq_some_iff] at hget
  obtain ⟨l, l', hes, -⟩ := hget
  rw [← List.mem_reverse, hes]
  exact List.mem_append_right l List.mem_cons_self

theorem perm_insertEntry (h : name ∉ es.map (·.1)) :
    (insertEntry name value es).Perm ((name, value) :: es) := by
  induction es with
  | nil => exact .refl _
  | cons e es ih =>
    obtain ⟨hne, h⟩ := List.ne_and_not_mem_of_not_mem_cons h
    rw [insertEntry, if_neg (show ¬name = e.1 from hne)]
    split
    · exact .refl _
    · exact ((ih h).cons e).trans (.swap _ _ _)

theorem perm_foldl_insert (h : (d.names ++ es.map (·.1)).Nodup) :
    (es.foldl (fun d e => d.insert e.1 e.2) d).entries.Perm (d.entries ++ es) := by
  induction es generalizing d with
  | nil => simp
  | cons e es ih =>
    have hnew : e.1 ∉ d.entries.map (·.1) := fun hm =>
      (List.nodup_append.1 h).2.2 _ hm _ List.mem_cons_self rfl
    have hperm : (d.insert e.1 e.2).entries.Perm (d.entries ++ [e]) :=
      (perm_insertEntry hnew).trans (List.perm_append_singleton e d.entries).symm
    have hnames : ((d.insert e.1 e.2).names ++ es.map (·.1)).Perm
        (d.names ++ (e :: es).map (·.1)) := by
      simpa [names] using (hperm.map (·.1)).append_right (es.map (·.1))
    have htail : ((d.insert e.1 e.2).entries ++ es).Perm (d.entries ++ e :: es) := by
      simpa using hperm.append_right es
    exact (ih (hnames.nodup_iff.2 h)).trans htail

/-- Entries whose names are not repeated all stay. -/
theorem perm_ofList (h : (es.map (·.1)).Nodup) : (ofList es).entries.Perm es :=
  perm_foldl_insert (d := ∅) h

/-- Without repeated names the order of the entries does not matter. -/
theorem ofList_eq_of_perm {es' : List (String × α)} (h : (es.map (·.1)).Nodup)
    (hperm : es'.Perm es) : ofList es' = ofList es := by
  have h' : (es'.map (·.1)).Nodup := (hperm.map (·.1)).nodup_iff.2 h
  refine ext_get? fun name => Option.ext fun value => ?_
  rw [get?_eq_some_iff, get?_eq_some_iff, ((perm_ofList h').trans hperm).mem_iff,
    (perm_ofList h).mem_iff]

theorem lookup_map {β : Type} (f : String → α → β) (es : List (String × α)) (name : String) :
    (es.map fun e => (e.1, f e.1 e.2)).lookup name = (es.lookup name).map (f name) := by
  induction es with
  | nil => rfl
  | cons e es ih =>
    rw [List.map_cons, List.lookup_cons, List.lookup_cons, ih]
    by_cases h : name = e.1
    · simp [h]
    · simp [beq_false_of_ne h]

end AudioFeatures.Dict
