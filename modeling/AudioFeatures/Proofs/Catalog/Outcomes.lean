import AudioFeatures.Proofs.Catalog.Resolution

/-! # What becomes of a feature that is looked up

A stage may have an entry under up to three names, one of which depends on the format of the stage
in front of it. Looking up a feature ends at the first stage without an entry. If there is none,
each stage is described by the first entry found for it, and the last format decides.
-/

namespace AudioFeatures

/-- The stage as it was written, with what an entry says of its transform. -/
def Transform.describedBy (t entry : Transform) : Transform :=
  { t with
    description := entry.description
    supportedParameters := entry.supportedParameters
    inputFormat := entry.inputFormat
    outputFormat := entry.outputFormat }

namespace Catalog

variable {c : Catalog} {prior : Option String} {t r : Transform} {ts rs : List Transform}
  {f g : Feature} {e : Error} {name : String}

/-- The names under which an entry for a stage is looked for, in this order. -/
def keys (name : String) (prior : Option String) : List String :=
  name :: ((prior.map (overload name)).toList ++ [overload name rawFormat])

theorem lookup?_eq_findSome? (c : Catalog) (name : String) (prior : Option String) :
    c.lookup? name prior = (keys name prior).findSome? c.get? := by
  have hone (key : String) : [key].findSome? c.get? = c.get? key := by
    cases h : c.get? key <;> simp [h]
  rw [lookup?, keys, ← List.singleton_append, List.findSome?_append, List.findSome?_append, hone,
    hone]
  cases prior with
  | none => rfl
  | some format => rw [Option.map_some, Option.toList_some, hone, Option.bind_some]

/-- The format in front of a place among stages of which the first stands behind `prior`. -/
def formatBefore (prior : Option String) (rs : List Transform) : Nat → Option String
  | 0 => prior
  | i + 1 => rs[i]?.map (·.outputFormat)

theorem formatBefore_cons (i : Nat) :
    formatBefore prior (r :: rs) (i + 1) = formatBefore (some r.outputFormat) rs i := by
  cases i <;> rfl

/-- The stages `rs` are the first ones of `ts`, each described by the first entry found for it. -/
def Describes (c : Catalog) (prior : Option String) (ts rs : List Transform) : Prop :=
  ∀ i r, rs[i]? = some r → ∃ t entry, ts[i]? = some t ∧
    (keys t.name (formatBefore prior rs i)).findSome? c.get? = some entry ∧ r = t.describedBy entry

/-- Behind the stages that are described stands one without an entry. -/
def Misses (c : Catalog) (prior : Option String) (ts : List Transform) (name : String) : Prop :=
  ∃ rs t, c.Describes prior ts rs ∧ ts[rs.length]? = some t ∧ t.name = name ∧
    ∀ key ∈ keys name (formatBefore prior rs rs.length), c.get? key = none

theorem describes_nil : c.Describes prior ts [] := by simp [Describes]

theorem describes_cons : c.Describes prior (t :: ts) (r :: rs) ↔
    (∃ entry, (keys t.name prior).findSome? c.get? = some entry ∧ r = t.describedBy entry) ∧
      c.Describes (some r.outputFormat) ts rs := by
  constructor
  · intro h
    constructor
    · obtain ⟨u, entry, hu, hentry⟩ := h 0 r rfl
      cases hu
      exact ⟨entry, hentry⟩
    · intro i s hs
      obtain ⟨u, entry, hu, hentry, hdescribed⟩ := h (i + 1) s hs
      exact ⟨u, entry, hu, by rwa [formatBefore_cons] at hentry, hdescribed⟩
  · rintro ⟨⟨entry, hentry, hr⟩, h⟩ i s hs
    cases i with
    | zero =>
      cases hs
      exact ⟨t, entry, rfl, hentry, hr⟩
    | succ i =>
      obtain ⟨u, entry', hu, hentry', hdescribed⟩ := h i s hs
      exact ⟨u, entry', hu, by rwa [formatBefore_cons], hdescribed⟩

theorem resolve_eq_ok_iff_describedBy : c.resolve t prior = .ok r ↔
    ∃ entry, (keys t.name prior).findSome? c.get? = some entry ∧ r = t.describedBy entry := by
  rw [resolve_eq_ok_iff, lookup?_eq_findSome?]
  rfl

theorem resolve_eq_error_iff : c.resolve t prior = .error e ↔
    (∀ key ∈ keys t.name prior, c.get? key = none) ∧ e = .transformNotRegistered t.name := by
  rw [← List.findSome?_eq_none_iff, ← lookup?_eq_findSome?, resolve]
  cases c.lookup? t.name prior with
  | none => simp [eq_comm]
  | some entry => simp

/-! ## Stages -/

theorem resolveStages_eq_ok_iff : c.resolveStages prior ts = .ok rs ↔
    c.Describes prior ts rs ∧ rs.length = ts.length := by
  induction ts generalizing prior rs with
  | nil =>
    cases rs with
    | nil => simp [resolveStages, describes_nil]
    | cons r rs => simp [resolveStages]
  | cons t ts ih =>
    rw [resolveStages_cons_eq_ok_iff]
    constructor
    · rintro ⟨r, us, hr, hus, rfl⟩
      obtain ⟨hdescribes, hlength⟩ := ih.1 hus
      exact ⟨describes_cons.2 ⟨resolve_eq_ok_iff_describedBy.1 hr, hdescribes⟩, by simp [hlength]⟩
    · rintro ⟨hdescribes, hlength⟩
      cases rs with
      | nil => cases hlength
      | cons r us =>
        obtain ⟨hr, hus⟩ := describes_cons.1 hdescribes
        exact ⟨r, us, resolve_eq_ok_iff_describedBy.2 hr, ih.2 ⟨hus, by simpa using hlength⟩, rfl⟩

theorem misses_cons : c.Misses prior (t :: ts) name ↔
    ((∀ key ∈ keys t.name prior, c.get? key = none) ∧ t.name = name) ∨
      ∃ r, c.resolve t prior = .ok r ∧ c.Misses (some r.outputFormat) ts name := by
  constructor
  · rintro ⟨rs, u, hdescribes, hu, rfl, hkeys⟩
    cases rs with
    | nil =>
      cases hu
      exact .inl ⟨hkeys, rfl⟩
    | cons r rs =>
      obtain ⟨hr, hrs⟩ := describes_cons.1 hdescribes
      rw [List.length_cons, formatBefore_cons] at hkeys
      exact .inr ⟨r, resolve_eq_ok_iff_describedBy.2 hr, rs, u, hrs, hu, rfl, hkeys⟩
  · rintro (⟨hkeys, rfl⟩ | ⟨r, hr, rs, u, hrs, hu, rfl, hkeys⟩)
    · exact ⟨[], t, describes_nil, rfl, rfl, hkeys⟩
    · refine ⟨r :: rs, u, describes_cons.2 ⟨resolve_eq_ok_iff_describedBy.1 hr, hrs⟩, hu, rfl, ?_⟩
      rwa [List.length_cons, formatBefore_cons]

/-- Looking up stages fails with the first one that has no entry, and in no other way. -/
theorem resolveStages_eq_error_iff : c.resolveStages prior ts = .error e ↔
    ∃ name, e = .transformNotRegistered name ∧ c.Misses prior ts name := by
  induction ts generalizing prior with
  | nil => simp [resolveStages, Misses]
  | cons t ts ih =>
    simp only [misses_cons]
    rw [resolveStages]
    cases hr : c.resolve t prior with
    | error e' =>
      obtain ⟨hkeys, rfl⟩ := resolve_eq_error_iff.1 hr
      constructor
      · intro h
        cases h
        exact ⟨t.name, rfl, .inl ⟨hkeys, rfl⟩⟩
      · rintro ⟨name, rfl, ⟨-, rfl⟩ | ⟨r, hr', -⟩⟩
        · rfl
        · cases hr'
    | ok r =>
      -- the first stage has an entry, so it is a later one that has none
      have hfound : ¬∀ key ∈ keys t.name prior, c.get? key = none := fun hkeys => by
        cases hr.symm.trans (resolve_eq_error_iff.2 ⟨hkeys, rfl⟩)
      have hrest : (c.resolveStages (some r.outputFormat) ts >>= fun us => pure (r :: us)) =
          .error e ↔ c.resolveStages (some r.outputFormat) ts = .error e := by
        cases c.resolveStages (some r.outputFormat) ts <;>
          simp [bind, Except.bind, pure, Except.pure]
      rw [ok_bind, hrest, ih]
      simp [hfound]

/-! ## Features -/

theorem outputFormat?_eq_some_iff {format : String} : f.outputFormat? = some format ↔
    ∃ r, f.stages.getLast? = some r ∧ r.outputFormat = format ∧ format ≠ "" := by
  cases h : f.stages.getLast? with
  | none => simp [Feature.outputFormat?, h]
  | some r =>
    rw [outputFormat?_of_getLast? h]
    by_cases hempty : r.outputFormat = "" <;> grind

theorem outputFormat?_eq_none_iff : f.outputFormat? = none ↔
    f.stages = [] ∨ ∃ r, f.stages.getLast? = some r ∧ r.outputFormat = "" := by
  cases h : f.stages.getLast? with
  | none => simp_all [Feature.outputFormat?]
  | some r =>
    have hne : f.stages ≠ [] := by
      rintro hnil
      simp [hnil] at h
    rw [outputFormat?_of_getLast? h]
    simp [hne]

theorem resolveAll_eq_error_iff : c.resolveAll f = .error e ↔
    c.resolveStages none f.stages = .error e ∨
      ∃ rs, c.resolveStages none f.stages = .ok rs ∧ Feature.outputFormat? ⟨f.name, rs⟩ = none ∧
        e = .formatNotRecognized f.name := by
  cases h : c.resolveStages none f.stages with
  | error e' =>
    rw [resolveAll, h]
    simp [bind, Except.bind]
  | ok rs =>
    cases hformat : Feature.outputFormat? ⟨f.name, rs⟩ with
    | none => simp [resolveAll_of_none h hformat, hformat, eq_comm]
    | some format => simp [resolveAll_of_some h hformat, hformat]

/-- A feature is refused with the first of its stages that has no entry. If all have one, it is
refused exactly if it has no stages or its last format is empty. Otherwise every stage stays as it
was written and is described by the first entry that is found for it. Nothing else can happen. -/
theorem resolveAll_outcome (c : Catalog) (f : Feature) :
    (∀ name, c.resolveAll f = .error (.transformNotRegistered name) ↔
        c.Misses none f.stages name) ∧
      (∀ name, c.resolveAll f = .error (.formatNotRecognized name) ↔
        name = f.name ∧ ∃ rs, c.Describes none f.stages rs ∧ rs.length = f.stages.length ∧
          (f.stages = [] ∨ ∃ r, rs.getLast? = some r ∧ r.outputFormat = "")) ∧
      (∀ g, c.resolveAll f = .ok g ↔
        g.name = f.name ∧ c.Describes none f.stages g.stages ∧
          g.stages.length = f.stages.length ∧
          ∃ r, g.stages.getLast? = some r ∧ r.outputFormat ≠ "") ∧
      ((∃ name, c.resolveAll f = .error (.transformNotRegistered name)) ∨
        c.resolveAll f = .error (.formatNotRecognized f.name) ∨ ∃ g, c.resolveAll f = .ok g) := by
  refine ⟨fun name => ?_, fun name => ?_, fun g => ?_, ?_⟩
  · rw [resolveAll_eq_error_iff, resolveStages_eq_error_iff]
    simp
  · rw [resolveAll_eq_error_iff, resolveStages_eq_error_iff]
    simp only [resolveStages_eq_ok_iff, outputFormat?_eq_none_iff]
    constructor
    · rintro (⟨name', he, -⟩ | ⟨rs, ⟨hdescribes, hlength⟩, hlast, he⟩)
      · cases he
      · cases he
        refine ⟨rfl, rs, hdescribes, hlength, hlast.imp_left fun hnil => ?_⟩
        rw [← List.length_eq_zero_iff, ← hlength, hnil, List.length_nil]
    · rintro ⟨rfl, rs, hdescribes, hlength, hlast⟩
      refine .inr ⟨rs, ⟨hdescribes, hlength⟩, hlast.imp_left fun hnil => ?_, rfl⟩
      rw [← List.length_eq_zero_iff, hlength, hnil, List.length_nil]
  · rw [resolveAll_eq_ok_iff, resolveStages_eq_ok_iff, Option.isSome_iff_exists]
    simp only [outputFormat?_eq_some_iff]
    constructor
    · rintro ⟨⟨hdescribes, hlength⟩, hname, format, r, hr, rfl, hformat⟩
      exact ⟨hname, hdescribes, hlength, r, hr, hformat⟩
    · rintro ⟨hname, hdescribes, hlength, r, hr, hformat⟩
      exact ⟨⟨hdescribes, hlength⟩, hname, _, r, hr, rfl, hformat⟩
  · cases h : c.resolveAll f with
    | ok g => exact .inr (.inr ⟨g, rfl⟩)
    | error e =>
      rcases resolveAll_eq_error_iff.1 h with h | ⟨rs, -, -, rfl⟩
      · obtain ⟨name, rfl, -⟩ := resolveStages_eq_error_iff.1 h
        exact .inl ⟨name, rfl⟩
      · exact .inr (.inl rfl)

end Catalog

end AudioFeatures
