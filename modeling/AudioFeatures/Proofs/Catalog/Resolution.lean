import AudioFeatures.Catalog.Basic
import AudioFeatures.Proofs.Fallible
import AudioFeatures.Proofs.Feature.WellFormed

/-! # Looking up stages

A stage is looked up by its name and the format of the stage before it. What it gets from the
catalog depends on nothing else, so stages that were looked up can be looked up again.
-/

namespace AudioFeatures.Catalog

variable {c : Catalog} {prior : Option String} {t r : Transform} {ts rs : List Transform}
  {f g : Feature}

/-- The format that stages of the given names end with, behind the given format. -/
def endFormat? (c : Catalog) : Option String → List String → Option String
  | prior, [] => prior
  | prior, name :: names =>
    (c.lookup? name prior).bind fun entry => c.endFormat? (some entry.outputFormat) names

/-- A plain entry is found whatever the format before. -/
theorem lookup?_of_get? {name : String} (h : c.get? name = some t) :
    c.lookup? name prior = some t := by
  rw [lookup?, h]
  rfl

/-- What is looked up is an entry, be it under another name. -/
theorem exists_get?_of_lookup? {name : String} (h : c.lookup? name prior = some t) :
    ∃ key, c.get? key = some t := by
  rw [lookup?, Option.or_eq_some_iff, Option.or_eq_some_iff] at h
  rcases h with h | ⟨-, h | ⟨-, h⟩⟩
  · exact ⟨_, h⟩
  · obtain ⟨format, -, h⟩ := Option.bind_eq_some_iff.1 h
    exact ⟨_, h⟩
  · exact ⟨_, h⟩

theorem resolve_eq_ok_iff : c.resolve t prior = .ok r ↔
    ∃ entry, c.lookup? t.name prior = some entry ∧ r = { entry with
      name := t.name, parameters := t.parameters, condition := t.condition } := by
  unfold resolve
  cases c.lookup? t.name prior with
  | none => exact ⟨nofun, nofun⟩
  | some entry => simp [eq_comm]

theorem resolveStages_cons_eq_ok_iff : c.resolveStages prior (t :: ts) = .ok rs ↔
    ∃ r us, c.resolve t prior = .ok r ∧ c.resolveStages (some r.outputFormat) ts = .ok us ∧
      rs = r :: us := by
  rw [resolveStages, bind_eq_ok_iff]
  constructor
  · rintro ⟨r, hr, h⟩
    obtain ⟨us, hus, h⟩ := bind_eq_ok_iff.1 h
    cases h
    exact ⟨r, us, hr, hus, rfl⟩
  · rintro ⟨r, us, hr, hus, rfl⟩
    exact ⟨r, hr, bind_eq_ok_iff.2 ⟨us, hus, rfl⟩⟩

theorem unresolved_resolve (h : c.resolve t prior = .ok r) : r.unresolved = t.unresolved := by
  obtain ⟨entry, -, rfl⟩ := resolve_eq_ok_iff.1 h
  rfl

/-- What a lookup finds depends on what was written only. -/
theorem resolve_congr (h : r.unresolved = t.unresolved) :
    c.resolve r prior = c.resolve t prior := by
  obtain ⟨hn, hp, hc⟩ : r.name = t.name ∧ r.parameters = t.parameters ∧ r.condition = t.condition :=
    by simpa [Transform.unresolved] using h
  rw [resolve, resolve, hn, hp, hc]

theorem unresolved_resolveStages (h : c.resolveStages prior ts = .ok rs) :
    rs.map Transform.unresolved = ts.map Transform.unresolved := by
  induction ts generalizing prior rs with
  | nil => cases h; rfl
  | cons t ts ih =>
    obtain ⟨r, us, hr, hus, rfl⟩ := resolveStages_cons_eq_ok_iff.1 h
    rw [List.map_cons, List.map_cons, unresolved_resolve hr, ih hus]

theorem resolveStages_again (h : c.resolveStages prior ts = .ok rs) :
    c.resolveStages prior rs = .ok rs := by
  induction ts generalizing prior rs with
  | nil => cases h; rfl
  | cons t ts ih =>
    obtain ⟨r, us, hr, hus, rfl⟩ := resolveStages_cons_eq_ok_iff.1 h
    refine resolveStages_cons_eq_ok_iff.2 ⟨r, us, ?_, ih hus, rfl⟩
    rw [resolve_congr (unresolved_resolve hr), hr]

theorem resolveStages_of_isPrefix (h : c.resolveStages prior rs = .ok rs) (hts : ts <+: rs) :
    c.resolveStages prior ts = .ok ts := by
  induction ts generalizing prior rs with
  | nil => rfl
  | cons t ts ih =>
    obtain ⟨us, rfl⟩ := hts
    obtain ⟨r, vs, hr, hvs, he⟩ := resolveStages_cons_eq_ok_iff.1 h
    obtain ⟨rfl, rfl⟩ := List.cons.inj he
    exact resolveStages_cons_eq_ok_iff.2 ⟨t, ts, hr, ih hvs (List.prefix_append _ _), rfl⟩

/-- Stages that were looked up have the format of a plain entry under their name. -/
theorem outputFormat_of_get? {entry : Transform} (h : c.resolveStages prior ts = .ok rs)
    (hr : r ∈ rs) (he : c.get? r.name = some entry) : r.outputFormat = entry.outputFormat := by
  induction ts generalizing prior rs with
  | nil =>
    cases h
    cases hr
  | cons t ts ih =>
    obtain ⟨q, us, hq, hus, rfl⟩ := resolveStages_cons_eq_ok_iff.1 h
    rcases List.mem_cons.1 hr with rfl | hr
    · obtain ⟨entry', he', rfl⟩ := resolve_eq_ok_iff.1 hq
      cases (lookup?_of_get? he).symm.trans he'
      rfl
    · exact ih hus hr

/-- The format of a stage that was looked up is the format of an entry. -/
theorem exists_get?_of_mem (h : c.resolveStages prior ts = .ok rs) (hr : r ∈ rs) :
    ∃ key entry, c.get? key = some entry ∧ r.outputFormat = entry.outputFormat := by
  induction ts generalizing prior rs with
  | nil =>
    cases h
    cases hr
  | cons t ts ih =>
    obtain ⟨q, us, hq, hus, rfl⟩ := resolveStages_cons_eq_ok_iff.1 h
    rcases List.mem_cons.1 hr with rfl | hr
    · obtain ⟨entry, he, rfl⟩ := resolve_eq_ok_iff.1 hq
      obtain ⟨key, hkey⟩ := exists_get?_of_lookup? he
      exact ⟨key, entry, hkey, rfl⟩
    · exact ih hus hr

/-- The stages end with the format that the lookups by their names end with. -/
theorem endFormat?_resolveStages (h : c.resolveStages prior ts = .ok rs) :
    c.endFormat? prior (ts.map (·.name)) =
      (rs.getLast?.map (·.outputFormat)).or prior := by
  induction ts generalizing prior rs with
  | nil => cases h; rfl
  | cons t ts ih =>
    obtain ⟨r, us, hr, hus, rfl⟩ := resolveStages_cons_eq_ok_iff.1 h
    obtain ⟨entry, he, rfl⟩ := resolve_eq_ok_iff.1 hr
    rw [List.map_cons, endFormat?, he, Option.bind_some, ih hus, List.getLast?_cons]
    cases us.getLast? <;> rfl

/-- With plain entries the format before does not matter. -/
theorem endFormat?_of_get? (h : ∀ t ∈ ts, ∃ entry, c.get? t.name = some entry ∧
      t.outputFormat = entry.outputFormat) :
    c.endFormat? prior (ts.map (·.name)) = (ts.getLast?.map (·.outputFormat)).or prior := by
  induction ts generalizing prior with
  | nil => rfl
  | cons t ts ih =>
    obtain ⟨entry, he, hformat⟩ := h t List.mem_cons_self
    rw [List.map_cons, endFormat?, lookup?_of_get? he, Option.bind_some,
      ih fun u hu => h u (List.mem_cons_of_mem _ hu), List.getLast?_cons, ← hformat]
    cases ts.getLast? <;> rfl

theorem exists_resolveStages {format : String}
    (h : c.endFormat? prior (ts.map (·.name)) = some format) :
    ∃ rs, c.resolveStages prior ts = .ok rs := by
  induction ts generalizing prior with
  | nil => exact ⟨[], rfl⟩
  | cons t ts ih =>
    obtain ⟨entry, he, h⟩ := Option.bind_eq_some_iff.1 h
    obtain ⟨us, hus⟩ := ih h
    exact ⟨_, resolveStages_cons_eq_ok_iff.2
      ⟨_, us, resolve_eq_ok_iff.2 ⟨entry, he, rfl⟩, hus, rfl⟩⟩

theorem resolveStages_error (hts : ts ≠ []) (h : c.endFormat? prior (ts.map (·.name)) = none) :
    ∃ name, c.resolveStages prior ts = .error (.transformNotRegistered name) := by
  induction ts generalizing prior with
  | nil => exact absurd rfl hts
  | cons t ts ih =>
    rw [List.map_cons, endFormat?] at h
    cases he : c.lookup? t.name prior with
    | none => exact ⟨t.name, by simp [resolveStages, resolve, he, bind, Except.bind]⟩
    | some entry =>
      rw [he, Option.bind_some] at h
      -- this stage was found, so the lookup fails at a later one
      have hts : ts ≠ [] := by
        rintro rfl
        cases h
      obtain ⟨name, hname⟩ := ih hts h
      exact ⟨name, by simp [resolveStages, resolve, he, hname, bind, Except.bind]⟩

theorem resolveAll_eq_ok (h : c.resolveAll f = .ok g) :
    ∃ rs, c.resolveStages none f.stages = .ok rs ∧ g = ⟨f.name, rs⟩ := by
  obtain ⟨rs, hrs, h⟩ := bind_eq_ok_iff.1 h
  dsimp only at h
  split at h
  · cases h
    exact ⟨rs, hrs, rfl⟩
  · cases h

theorem resolveAll_of_some {format : String} (h : c.resolveStages none f.stages = .ok rs)
    (hformat : Feature.outputFormat? ⟨f.name, rs⟩ = some format) :
    c.resolveAll f = .ok ⟨f.name, rs⟩ :=
  bind_eq_ok_iff.2 ⟨rs, h, by simp only [hformat]⟩

theorem resolveAll_of_none (h : c.resolveStages none f.stages = .ok rs)
    (hformat : Feature.outputFormat? ⟨f.name, rs⟩ = none) :
    c.resolveAll f = .error (.formatNotRecognized f.name) := by
  rw [resolveAll, h]
  simp only [bind, Except.bind, hformat]

theorem resolveAll_eq_ok_iff : c.resolveAll f = .ok g ↔
    c.resolveStages none f.stages = .ok g.stages ∧ g.name = f.name ∧ g.outputFormat?.isSome := by
  constructor
  · intro h
    obtain ⟨rs, hrs, h⟩ := bind_eq_ok_iff.1 h
    dsimp only at h
    split at h
    case h_1 format hformat =>
      cases h
      exact ⟨hrs, rfl, Option.isSome_iff_exists.2 ⟨format, hformat⟩⟩
    case h_2 => cases h
  · rintro ⟨hrs, hname, hformat⟩
    obtain ⟨format, hformat⟩ := Option.isSome_iff_exists.1 hformat
    have hg : g = ⟨f.name, g.stages⟩ := by rw [← hname]
    rw [hg] at hformat ⊢
    exact resolveAll_of_some hrs hformat

/-- A feature that was looked up can be looked up again. -/
theorem resolveAll_again (h : c.resolveAll f = .ok g) : c.resolveAll g = .ok g := by
  obtain ⟨hstages, -, hformat⟩ := resolveAll_eq_ok_iff.1 h
  exact resolveAll_eq_ok_iff.2 ⟨resolveStages_again hstages, rfl, hformat⟩

theorem outputFormat?_of_getLast? (h : f.stages.getLast? = some r) :
    f.outputFormat? = if r.outputFormat = "" then none else some r.outputFormat := by
  rw [Feature.outputFormat?, h]
  simp only [beq_iff_eq]

/-- The outcome of looking up a feature is determined by the format that its stages end with. -/
theorem resolveAll_cases (hf : f.stages ≠ []) :
    (c.endFormat? none (f.stages.map (·.name)) = none ∧
        ∃ name, c.resolveAll f = .error (.transformNotRegistered name)) ∨
      (c.endFormat? none (f.stages.map (·.name)) = some "" ∧
        c.resolveAll f = .error (.formatNotRecognized f.name)) ∨
      ∃ g format, c.endFormat? none (f.stages.map (·.name)) = some format ∧ format ≠ "" ∧
        c.resolveAll f = .ok g ∧ g.outputFormat? = some format := by
  cases hend : c.endFormat? none (f.stages.map (·.name)) with
  | none =>
    obtain ⟨name, hname⟩ := resolveStages_error hf hend
    exact .inl ⟨rfl, name, by rw [resolveAll, hname]; rfl⟩
  | some format =>
    obtain ⟨rs, hrs⟩ := exists_resolveStages hend
    rw [endFormat?_resolveStages hrs, Option.or_none] at hend
    obtain ⟨r, hr, rfl⟩ := Option.map_eq_some_iff.1 hend
    have hformat := outputFormat?_of_getLast? (f := ⟨f.name, rs⟩) hr
    by_cases hempty : r.outputFormat = ""
    · rw [if_pos hempty] at hformat
      exact .inr (.inl ⟨by rw [hempty], resolveAll_of_none hrs hformat⟩)
    · rw [if_neg hempty] at hformat
      exact .inr (.inr ⟨⟨f.name, rs⟩, _, rfl, hempty, resolveAll_of_some hrs hformat, hformat⟩)

end AudioFeatures.Catalog
