import AudioFeatures.Proofs.SharedEngine.Calls

/-! # Processes

A process makes any number of calls that use the shared engine, with any paths and whatever the
loader finds under them at the time. All that it hands out belongs to one library, the first that
could be loaded, and to one catalog, which was loaded from this library.
-/

namespace AudioFeatures

open Engine

structure Process where
  shared : SharedEngine := {}
  /-- What was handed out, with the libraries that it uses. -/
  handed : List (Library × Product) := []

namespace Process

def perform (p : Process) (op : Operation) : Dialogue Libraries Process := do
  let (a, s) ← op.exchange p.shared
  return ⟨s, p.handed ++ a.toOption.toList⟩

def performAll (p : Process) (ops : List Operation) : Dialogue Libraries Process :=
  ops.foldlM perform p

/-- How an operation ends. -/
inductive Performs (p : Process) (op : Operation) (R : Responder Libraries) (σ : R.State) :
    Outcome Libraries R.State Process → Prop
  | unread {x} (h : op.call.job = .error x) : Performs p op R σ ⟨p, σ, []⟩
  | notFound {path j} (h : op.call.job = .ok (path, j))
      (hnone : p.shared.found? op.files path = none) : Performs p op R σ ⟨p, σ, []⟩
  | found {path j l o} (h : op.call.job = .ok (path, j))
      (hsome : p.shared.found? op.files path = some l)
      (ho : j.Ends { p.shared with library := some l } (R.engineOf l) σ o) :
      Performs p op R σ
        ⟨⟨o.value.2, p.handed ++ (o.value.1.toOption.map fun a => (l, a)).toList⟩, o.state,
          (l.warnings path).map .line ++ o.events.map l.step⟩

variable {p : Process} {op : Operation} {R : Responder Libraries} {σ : R.State}
  {o : Outcome Libraries R.State Process}

theorem performs_run (p : Process) (op : Operation) (R : Responder Libraries) (σ : R.State) :
    p.Performs op R σ ((p.perform op).run R σ) := by
  have hnothing : (⟨p.shared, p.handed ++ []⟩ : Process) = p := by rw [List.append_nil]
  rw [perform, Operation.exchange, Call.exchange_eq]
  cases h : op.call.job with
  | error x =>
    show p.Performs op R σ ⟨⟨p.shared, p.handed ++ []⟩, σ, []⟩
    rw [hnothing]
    exact .unread h
  | ok task =>
    obtain ⟨path, j⟩ := task
    show p.Performs op R σ
      ((((p.shared.exchange op.files path j).bind _).bind _).run R σ)
    rw [Dialogue.bind_assoc, Dialogue.run_bind]
    cases hfound : p.shared.found? op.files path with
    | none =>
      obtain ⟨e, he⟩ := SharedEngine.run_exchange_of_none (R := R) (σ := σ) hfound j
      rw [he]
      show p.Performs op R σ ⟨⟨p.shared, p.handed ++ []⟩, σ, []⟩
      rw [hnothing]
      exact .notFound h hfound
    | some l =>
      obtain ⟨⟨⟨a, s⟩, τ, es⟩, ho, hrun⟩ :=
        SharedEngine.run_exchange_of_some (R := R) (σ := σ) hfound j
      have hperforms := Performs.found h hfound ho
      rw [← List.append_nil (_ ++ es.map l.step)] at hperforms
      rw [hrun]
      cases a <;> exact hperforms

/-! ## The two slots -/

namespace Performs

/-- A shared library stays; an empty slot takes what the operation loads. -/
theorem library (h : p.Performs op R σ o) :
    o.value.shared.library = p.shared.library.or op.library? := by
  cases h with
  | unread h => simp [Operation.library?, Operation.path?_of_error h]
  | notFound h hnone =>
    rw [← Operation.found?_of_job h, hnone]
    exact SharedEngine.library_eq_none hnone
  | found h hsome ho => rw [ho.library, ← Operation.found?_of_job h, hsome]

/-- A shared catalog stays; an empty slot takes what the operation loads with the library. -/
theorem catalog (h : p.Performs op R σ o) : o.value.shared.catalog =
    p.shared.catalog.or (op.catalog? R o.value.shared.library σ) := by
  cases h with
  | unread h => simp [Operation.catalog?, h]
  | notFound h hnone =>
    simp [Operation.catalog?, h, SharedEngine.library_eq_none hnone]
  | found h hsome ho =>
    rw [ho.catalog, ho.library]
    simp [Operation.catalog?, h]

theorem lines (h : p.Performs op R σ o) :
    o.events.filterMap Event.line? = op.warnings o.value.shared.library := by
  cases h with
  | unread h => simp [Operation.warnings, Operation.path?_of_error h]
  | notFound h hnone => simp [Operation.warnings, SharedEngine.library_eq_none hnone]
  | @found path j l o h hsome ho =>
    have hlines : ((l.warnings path).map (Event.line (I := Libraries))).filterMap Event.line? =
        l.warnings path := by
      rw [List.filterMap_map]
      exact List.filterMap_some
    rw [List.filterMap_append, hlines, Library.filterMap_line?_step,
      ho.lines (Call.isOfCall_job h).isPlain, List.append_nil, ho.library]
    simp [Operation.warnings, Operation.path?_of_job h]

/-- Whatever is asked is asked of the engine of the library that is shared then. -/
theorem addressed {l : Library} {q : Request} {r : q.Reply} (h : p.Performs op R σ o)
    (hq : Event.call (I := Libraries) (l, q) r ∈ o.events) :
    o.value.shared.library = some l := by
  cases h with
  | unread | notFound => cases hq
  | found h hsome ho => rw [ho.library, (Library.call_mem_steps hq).1]

/-- A catalog that is shared is not asked for again. -/
theorem isCatalogQuery_eq_false {l : Library} {q : Request} {r : q.Reply}
    (h : p.Performs op R σ o) (hc : p.shared.catalog.isSome)
    (hq : Event.call (I := Libraries) (l, q) r ∈ o.events) : q.isCatalogQuery = false := by
  cases h with
  | unread | notFound => cases hq
  | found h hsome ho =>
    obtain ⟨-, hq⟩ := Library.call_mem_steps hq
    exact ho.isCatalogQuery_eq_false (Call.isOfCall_job h).isPlain hc hq

end Performs

/-! ## What belongs together -/

/-- All that a process did and handed out belongs to one library and one catalog. -/
structure Coherent (R : Responder Libraries) (p : Process) (events : List (Event Libraries)) :
    Prop where
  /-- Every request was put to the engine of the shared library. -/
  addressed : ∀ (l : Library) (q : Request) (r : q.Reply),
    Event.call (I := Libraries) (l, q) r ∈ events → p.shared.library = some l
  /-- The shared catalog was loaded from the shared library. -/
  loaded : ∀ c, p.shared.catalog = some c →
    ∃ l, p.shared.library = some l ∧ l.Gave R c events
  /-- What was handed out uses the shared library and the shared catalog. -/
  handed : ∀ l product, (l, product) ∈ p.handed →
    p.shared.library = some l ∧ product.Uses l p.shared.catalog events

variable {events : List (Event Libraries)}

namespace Performs

theorem loaded_or {c : Catalog} (h : p.Performs op R σ o) (hc : o.value.shared.catalog = some c) :
    p.shared.catalog = some c ∨
      ∃ l, o.value.shared.library = some l ∧ l.Gave R c o.events := by
  cases h with
  | unread | notFound => exact .inl hc
  | @found path j l o h hsome ho =>
    refine (ho.loaded_or hc).imp id ?_
    rintro ⟨hvalue, hevents⟩
    refine ⟨l, ho.library, σ, ?_, ?_⟩
    · rw [Library.run_hold]
      exact hvalue
    · rw [Library.run_hold]
      exact (hevents.map l.step).isInfix.trans (List.suffix_append _ _).isInfix

theorem handed_or {l : Library} {product : Product} (h : p.Performs op R σ o)
    (hproduct : (l, product) ∈ o.value.handed) : (l, product) ∈ p.handed ∨
      o.value.shared.library = some l ∧ product.Uses l o.value.shared.catalog o.events := by
  cases h with
  | unread | notFound => exact .inl hproduct
  | @found path j m o h hsome ho =>
    refine (List.mem_append.1 hproduct).imp id fun hproduct => ?_
    rw [Option.mem_toList, Option.map_eq_some_iff] at hproduct
    obtain ⟨a, ha, he⟩ := hproduct
    cases he
    have huses := (Call.isOfCall_job h).uses ho (toOption_eq_some_iff.1 ha) l
    exact ⟨ho.library, huses.mono (fun _ => id) (List.subset_append_right _ _)⟩

/-- What a process did and handed out stays coherent. -/
theorem coherent (h : p.Performs op R σ o) (hp : p.Coherent R events) :
    o.value.Coherent R (events ++ o.events) := by
  have hlibrary {l : Library} (hl : p.shared.library = some l) :
      o.value.shared.library = some l := by
    rw [h.library, hl, Option.some_or]
  have hcatalog (c : Catalog) (hc : p.shared.catalog = some c) :
      o.value.shared.catalog = some c := by
    rw [h.catalog, hc, Option.some_or]
  have hbefore : events <:+: events ++ o.events := (List.prefix_append _ _).isInfix
  have hnow : o.events <:+: events ++ o.events := (List.suffix_append _ _).isInfix
  refine ⟨fun l q r hq => ?_, fun c hc => ?_, fun l product hproduct => ?_⟩
  · rcases List.mem_append.1 hq with hq | hq
    · exact hlibrary (hp.addressed l q r hq)
    · exact h.addressed hq
  · rcases h.loaded_or hc with hc | ⟨l, hl, hgave⟩
    · obtain ⟨l, hl, hgave⟩ := hp.loaded c hc
      exact ⟨l, hlibrary hl, hgave.mono hbefore⟩
    · exact ⟨l, hl, hgave.mono hnow⟩
  · rcases h.handed_or hproduct with hproduct | ⟨hl, huses⟩
    · obtain ⟨hl, huses⟩ := hp.handed l product hproduct
      exact ⟨hlibrary hl, huses.mono hcatalog hbefore.subset⟩
    · exact ⟨hl, huses.mono (fun _ => id) hnow.subset⟩

end Performs

theorem coherent_nil (R : Responder Libraries) : Coherent R {} [] where
  addressed _ _ _ h := by cases h
  loaded _ h := by cases h
  handed _ _ h := by cases h

theorem run_performAll_cons (p : Process) (op : Operation) (ops : List Operation)
    (R : Responder Libraries) (σ : R.State) :
    (p.performAll (op :: ops)).run R σ =
      let o := (p.perform op).run R σ
      let o' := (o.value.performAll ops).run R o.state
      ⟨o'.value, o'.state, o.events ++ o'.events⟩ := by
  rw [performAll, List.foldlM_cons]
  exact Dialogue.run_bind R _ _ σ

theorem coherent_run (hp : p.Coherent R events) (ops : List Operation) (σ : R.State) :
    ((p.performAll ops).run R σ).value.Coherent R
      (events ++ ((p.performAll ops).run R σ).events) := by
  induction ops generalizing p events σ with
  | nil => simpa [performAll, Dialogue.run, pure] using hp
  | cons op ops ih =>
    rw [run_performAll_cons, ← List.append_assoc]
    exact ih ((p.performs_run op R σ).coherent hp) _

/-- The first library that could be loaded is the one that is shared. -/
theorem library_run (p : Process) (ops : List Operation) (R : Responder Libraries)
    (σ : R.State) : ((p.performAll ops).run R σ).value.shared.library =
      p.shared.library.or (ops.findSome? Operation.library?) := by
  induction ops generalizing p σ with
  | nil => exact (Option.or_none).symm
  | cons op ops ih =>
    rw [run_performAll_cons]
    dsimp only
    rw [ih, (p.performs_run op R σ).library, Option.or_assoc, List.findSome?_cons]
    cases op.library? <;> rfl

/-- The catalogs that operations load from the library that is shared then, or would load if there
was none. -/
def catalogs (R : Responder Libraries) (p : Process) (σ : R.State) :
    List Operation → List (Option Catalog)
  | [] => []
  | op :: ops =>
    let o := (p.perform op).run R σ
    op.catalog? R o.value.shared.library σ :: catalogs R o.value o.state ops

/-- The first catalog that could be loaded is the one that is shared. -/
theorem catalog_run (p : Process) (ops : List Operation) (R : Responder Libraries)
    (σ : R.State) : ((p.performAll ops).run R σ).value.shared.catalog =
      p.shared.catalog.or ((catalogs R p σ ops).findSome? id) := by
  induction ops generalizing p σ with
  | nil => exact (Option.or_none).symm
  | cons op ops ih =>
    rw [run_performAll_cons, catalogs]
    dsimp only
    rw [ih, (p.performs_run op R σ).catalog, Option.or_assoc, List.findSome?_cons, id]
    cases op.catalog? R _ σ <;> rfl

/-- Whatever engines there are behind the libraries, and whatever operations a process performs:
all that it did and handed out belongs to one library and one catalog. The library is the first that
could be loaded, and the next operation only loads one if there is none. With the catalog it is the
same, and as long as there is a catalog none is asked for. The operation writes a warning if its
path is another than that of the library, and nothing else. But for the names of libraries, the
operations are the calls that scripts make. -/
theorem shared_performAll (R : Responder Libraries) (σ : R.State) (ops : List Operation)
    (op : Operation) :
    let o := (performAll {} ops).run R σ
    let p := (o.value.perform op).run R o.state
    o.value.Coherent R o.events ∧
      o.value.shared.library = ops.findSome? Operation.library? ∧
      o.value.shared.catalog = (catalogs R {} σ ops).findSome? id ∧
      p.value.shared.library = o.value.shared.library.or op.library? ∧
      p.value.shared.catalog =
        o.value.shared.catalog.or (op.catalog? R p.value.shared.library o.state) ∧
      (o.value.shared.catalog.isSome → ∀ (l : Library) (q : Request) (r : q.Reply),
        Event.call (I := Libraries) (l, q) r ∈ p.events → q.isCatalogQuery = false) ∧
      p.events.filterMap Event.line? = op.warnings p.value.shared.library ∧
      ∀ s, ((op.exchange s).unnamed >>= fun a => pure (a.1.map Prod.snd, a.2)) =
        op.call.run s op.files := by
  intro o p
  have hp : o.value.Performs op R o.state p := performs_run _ op R _
  exact ⟨coherent_run (coherent_nil R) ops σ, library_run {} ops R σ, catalog_run {} ops R σ,
    hp.library, hp.catalog, fun hc l q r => hp.isCatalogQuery_eq_false hc, hp.lines,
    fun s => op.call.alone_exchange s op.files⟩

/-! ## One path that leads nowhere and two libraries -/

namespace Paths

def files : LibraryFiles := fun path =>
  if path == "a" || path == "b" then .exports Engine.symbols else .notLoadable "no such file"

def asking (path : String) : Operation := ⟨files, .getTunables [("library_path", .text path)]⟩

def engines : Responder Libraries where
  State := Accounted.State
  reply q s := Accounted.reply q.2 s

def outcome : Outcome Libraries Accounted.State Process :=
  (performAll {} [asking "c", asking "a", asking "b"]).run engines {}

example : outcome.value.shared.library = some ⟨"a"⟩ := by cbv

example : outcome.events.filterMap Event.line? =
    [.warning "Native library already loaded from a, ignoring b"] := by cbv

end Paths

end Process

end AudioFeatures
