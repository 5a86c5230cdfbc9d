import AudioFeatures.Proofs.Extractor.Questions
import AudioFeatures.Proofs.SharedEngine.Libraries

/-! # Jobs for a shared engine

A shared engine is used in two steps. The library is found, or loaded if there is none yet. Then the
job is done with its engine, and the catalog is loaded from this engine before if the job needs one
and there is none yet. Between the two steps, and behind them, the job may fail.
-/

namespace AudioFeatures

open Engine

variable {α : Type} {s : SharedEngine} {c : Catalog}

/-- What is done once there is a library. -/
inductive Job (α : Type) where
  | withCatalog (next : Catalog → Talk (Except Error α))
  | withEngine (d : Talk α)

namespace Job

def run (s : SharedEngine) : Job α → Talk (Except Error α × SharedEngine)
  | withCatalog next => do
    match ← s.useCatalog with
    | (.error e, s) => return (.error e, s)
    | (.ok c, s) => return (← next c, s)
  | withEngine d => return (.ok (← d), s)

/-- The catalog that is loaded for the job where none is shared. -/
def loads? (j : Job α) (R : Responder interface) (σ : R.State) : Option Catalog :=
  match j with
  | withCatalog _ => (Catalog.load.run R σ).value.toOption
  | withEngine _ => none

/-- But for the catalog it is given, the job asks for none, and it writes nothing to the log. -/
def IsPlain : Job α → Prop
  | withCatalog next => ∀ c, (next c).Asks fun q : Request => q.isCatalogQuery = false
  | withEngine d => d.Asks fun q : Request => q.isCatalogQuery = false

/-- How a job ends. -/
inductive Ends (s : SharedEngine) (R : Responder interface) (σ : R.State) :
    Job α → Outcome interface R.State (Except Error α × SharedEngine) → Prop
  | shared {c next} (h : s.catalog = some c) : Ends s R σ (withCatalog next)
      (let o := (next c).run R σ
      ⟨(o.value, s), o.state, o.events⟩)
  | notLoaded {e next} (h : s.catalog = none) (he : (Catalog.load.run R σ).value = .error e) :
      Ends s R σ (withCatalog next)
        (let o := Catalog.load.run R σ
        ⟨(.error e, s), o.state, o.events⟩)
  | loaded {c next} (h : s.catalog = none) (hc : (Catalog.load.run R σ).value = .ok c) :
      Ends s R σ (withCatalog next)
        (let o := Catalog.load.run R σ
        let p := (next c).run R o.state
        ⟨(p.value, { s with catalog := some c }), p.state, o.events ++ p.events⟩)
  | withEngine {d} : Ends s R σ (withEngine d)
      (let o := d.run R σ
      ⟨(.ok o.value, s), o.state, o.events⟩)

variable {next : Catalog → Talk (Except Error α)} {d : Talk α} {j : Job α}
  {R : Responder interface} {σ : R.State}
  {o : Outcome interface R.State (Except Error α × SharedEngine)}

theorem withCatalog_of_some (h : s.catalog = some c) :
    (withCatalog next).run s = (next c).bind fun a => .done (a, s) := by
  obtain ⟨library, catalog⟩ := s
  cases h
  rfl

theorem withCatalog_of_none (h : s.catalog = none) :
    (withCatalog next).run s = Catalog.load.bind fun
      | .error e => .done (.error e, s)
      | .ok c => (next c).bind fun a => .done (a, { s with catalog := some c }) := by
  obtain ⟨library, catalog⟩ := s
  cases h
  show ((Catalog.load.bind _).bind _).bind _ = _
  rw [Dialogue.bind_assoc, Dialogue.bind_assoc]
  refine congrArg _ (funext fun c => ?_)
  cases c <;> rfl

theorem ends_run (j : Job α) (s : SharedEngine) (R : Responder interface) (σ : R.State) :
    j.Ends s R σ ((j.run s).run R σ) := by
  cases j with
  | withCatalog next =>
    cases h : s.catalog with
    | some c =>
      rw [withCatalog_of_some h, Dialogue.run_bind]
      simpa only [Dialogue.run, List.append_nil] using Ends.shared h
    | none =>
      rw [withCatalog_of_none h, Dialogue.run_bind]
      cases hload : (Catalog.load.run R σ).value with
      | error e => simpa only [hload, Dialogue.run, List.append_nil] using Ends.notLoaded h hload
      | ok c =>
        simpa only [hload, Dialogue.run_bind, Dialogue.run, List.append_nil] using
          Ends.loaded h hload
  | withEngine d =>
    show Ends s R σ _ ((d.bind fun a => .done (Except.ok a, s)).run R σ)
    rw [Dialogue.run_bind]
    simpa only [Dialogue.run, List.append_nil] using Ends.withEngine

namespace Ends

theorem library (h : j.Ends s R σ o) : o.value.2.library = s.library := by
  cases h <;> rfl

/-- A shared catalog stays; an empty slot takes what the job loads. -/
theorem catalog (h : j.Ends s R σ o) : o.value.2.catalog = s.catalog.or (j.loads? R σ) := by
  cases h with
  | shared h => simp [h]
  | notLoaded h he => simp [h, loads?, he, Except.toOption]
  | loaded h hc => simp [h, loads?, hc, Except.toOption]
  | withEngine => simp [loads?]

theorem lines (h : j.Ends s R σ o) (hj : j.IsPlain) :
    o.events.filterMap Event.line? = [] := by
  cases h with
  | shared => exact (hj _).lines_eq_nil
  | notLoaded => exact Catalog.asks_load.lines_eq_nil
  | loaded =>
    rw [List.filterMap_append, Catalog.asks_load.lines_eq_nil, (hj _).lines_eq_nil]
    rfl
  | withEngine => exact Dialogue.Asks.lines_eq_nil hj

/-- A catalog that is shared is not asked for again. -/
theorem isCatalogQuery_eq_false {q : Request} {r : q.Reply} (h : j.Ends s R σ o) (hj : j.IsPlain)
    (hc : s.catalog.isSome) (hq : .call q r ∈ o.events) : q.isCatalogQuery = false := by
  have hcall {α : Type} {d : Talk α} (hd : d.Asks fun q : Request => q.isCatalogQuery = false)
      (hq : .call q r ∈ (d.run R σ).events) : q.isCatalogQuery = false := by
    obtain ⟨q', r', hq', he⟩ := hd.exists_call hq
    cases he
    exact hq'
  cases h with
  | shared => exact hcall (hj _) hq
  | notLoaded h | loaded h =>
    rw [h] at hc
    cases hc
  | withEngine => exact hcall hj hq

/-- The catalog in the slot was there before or was just loaded. -/
theorem loaded_or (h : j.Ends s R σ o) (hc : o.value.2.catalog = some c) : s.catalog = some c ∨
    (Catalog.load.run R σ).value = .ok c ∧ (Catalog.load.run R σ).events <+: o.events := by
  cases h with
  | shared | withEngine => exact .inl hc
  | notLoaded h => exact .inl hc
  | loaded h hload =>
    cases hc
    exact .inr ⟨hload, List.prefix_append _ _⟩

/-- What a job with a catalog gives, it gives for the catalog in the slot. -/
theorem exists_next {a : α} (h : (Job.withCatalog next).Ends s R σ o) (ha : o.value.1 = .ok a) :
    ∃ c τ, o.value.2.catalog = some c ∧ ((next c).run R τ).value = .ok a ∧
      ((next c).run R τ).events <:+ o.events := by
  cases h with
  | shared h => exact ⟨_, σ, h, ha, List.suffix_rfl⟩
  | notLoaded => cases ha
  | loaded h hload => exact ⟨_, _, rfl, ha, List.suffix_append _ _⟩

end Ends

end Job

/-- What is written to the log when the library is there and another path is asked for. -/
def Library.warnings (l : Library) (path : String) : List LogLine :=
  if l.path = path then [] else [l.ignoring path]

namespace SharedEngine

variable {files : LibraryFiles} {path : String} {l : Library}

/-- The library that is shared once it was asked for under a path. -/
def found? (s : SharedEngine) (files : LibraryFiles) (path : String) : Option Library :=
  s.library.or (Library.load path (files path)).toOption

theorem library_eq_none (h : s.found? files path = none) : s.library = none :=
  (Option.or_eq_none_iff.1 h).1

theorem run_useLibrary_of_none {I : Interface} (h : s.found? files path = none) (R : Responder I)
    (σ : R.State) :
    ∃ e, (s.useLibrary files path).run R σ = ⟨(.error e, s), σ, []⟩ := by
  obtain ⟨library, catalog⟩ := s
  cases library with
  | some l => cases h
  | none =>
    rw [found?, Option.none_or] at h
    rw [useLibrary]
    cases hload : Library.load path (files path) with
    | error e => exact ⟨e, rfl⟩
    | ok l =>
      rw [hload] at h
      cases h

theorem run_useLibrary_of_some {I : Interface} (h : s.found? files path = some l)
    (R : Responder I) (σ : R.State) :
    (s.useLibrary files path).run R σ =
      ⟨(.ok l, { s with library := some l }), σ, (l.warnings path).map .line⟩ := by
  obtain ⟨library, catalog⟩ := s
  cases library with
  | some l =>
    cases h
    rw [useLibrary, Library.warnings]
    by_cases hpath : l.path = path <;> simp [hpath] <;> rfl
  | none =>
    rw [found?, Option.none_or] at h
    rw [useLibrary, Library.warnings]
    cases hload : Library.load path (files path) with
    | error e =>
      rw [hload] at h
      cases h
    | ok l =>
      rw [hload] at h
      cases h
      rw [if_pos (Library.path_of_load hload)]
      rfl

/-- The job among all libraries. It is done with the engine of the library that was found, and what
it gives comes with this library. -/
def exchange (s : SharedEngine) (files : LibraryFiles) (path : String) (j : Job α) :
    Dialogue Libraries (Except Error (Library × α) × SharedEngine) := do
  match ← s.useLibrary files path with
  | (.error e, s) => return (.error e, s)
  | (.ok l, s) => do
    let (a, s) ← l.hold (j.run s)
    return (a.map fun a => (l, a), s)

variable {R : Responder Libraries} {σ : R.State}

/-- Without a library nothing happens. -/
theorem run_exchange_of_none (h : s.found? files path = none) (j : Job α) :
    ∃ e, (s.exchange files path j).run R σ = ⟨(.error e, s), σ, []⟩ := by
  obtain ⟨e, he⟩ := run_useLibrary_of_none h R σ
  refine ⟨e, ?_⟩
  show ((s.useLibrary files path).bind _).run R σ = _
  rw [Dialogue.run_bind, he]
  rfl

/-- With a library the job ends somehow with the engine of this library. -/
theorem run_exchange_of_some (h : s.found? files path = some l) (j : Job α) :
    ∃ o, j.Ends { s with library := some l } (R.engineOf l) σ o ∧
      (s.exchange files path j).run R σ =
        ⟨(o.value.1.map fun a => (l, a), o.value.2), o.state,
          (l.warnings path).map .line ++ o.events.map l.step⟩ := by
  refine ⟨_, j.ends_run { s with library := some l } (R.engineOf l) σ, ?_⟩
  have hheld : ((l.hold (j.run { s with library := some l })).bind fun o =>
      .done (o.1.map fun a => (l, a), o.2)).run R σ =
        let o := (j.run { s with library := some l }).run (R.engineOf l) σ
        ⟨(o.value.1.map fun a => (l, a), o.value.2), o.state, o.events.map l.step⟩ := by
    rw [Dialogue.run_bind, Library.run_hold]
    simp only [Dialogue.run, List.append_nil]
  show ((s.useLibrary files path).bind _).run R σ = _
  rw [Dialogue.run_bind, run_useLibrary_of_some h]
  exact congrArg (fun o => Outcome.mk o.value o.state ((l.warnings path).map .line ++ o.events))
    hheld

/-- A job with a catalog finds library and catalog together. -/
theorem exchange_withCatalog (s : SharedEngine) (files : LibraryFiles) (path : String)
    (next : Catalog → Talk (Except Error α)) :
    s.exchange files path (.withCatalog next) = s.use files path >>= fun
      | (.error e, s) => pure (.error e, s)
      | (.ok (l, c), s) => l.hold (next c) >>= fun a => pure (a.map fun a => (l, a), s) := by
  rw [exchange, use, bind_assoc]
  refine bind_congr fun o => ?_
  obtain ⟨e | l, s⟩ := o
  · rfl
  · show (l.hold (s.useCatalog >>= _) >>= _) = (l.hold s.useCatalog >>= _) >>= _
    rw [Library.hold_bind, bind_assoc, bind_assoc]
    refine bind_congr fun o => ?_
    obtain ⟨e | c, s⟩ := o
    · rfl
    · show (l.hold (next c >>= _) >>= _) = l.hold (next c) >>= _
      rw [Library.hold_bind, bind_assoc]
      rfl

/-- A job without a catalog needs the library only. -/
theorem exchange_withEngine (s : SharedEngine) (files : LibraryFiles) (path : String)
    (d : Talk α) :
    s.exchange files path (.withEngine d) = s.useLibrary files path >>= fun
      | (.error e, s) => pure (.error e, s)
      | (.ok l, s) => l.hold d >>= fun a => pure (.ok (l, a), s) := by
  rw [exchange]
  refine bind_congr fun o => ?_
  obtain ⟨e | l, s⟩ := o
  · rfl
  · show (l.hold (d >>= _) >>= _) = l.hold d >>= _
    rw [Library.hold_bind, bind_assoc]
    rfl

end SharedEngine

end AudioFeatures
