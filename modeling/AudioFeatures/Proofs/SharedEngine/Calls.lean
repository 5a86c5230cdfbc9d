import AudioFeatures.Proofs.Extractor.Pipelines
import AudioFeatures.Proofs.SharedEngine.Jobs
import AudioFeatures.Scripting.Objects

/-! # Calls of scripts

The calls that use the shared engine read their arguments first. Then each is a job for the shared
engine: one that opens an extractor or an explorer needs the catalog, one that concerns tunables
does not.
-/

namespace AudioFeatures

open Engine

/-- What a call hands out. -/
inductive Product where
  | extractor (x : Extractor)
  | explorer (x : Scripting.Explorer)
  | value (v : Scripting.Value)

/-- The calls that use the shared engine. The settings of an extractor are given as they are, as
arguments or in a file, and may not be readable. -/
inductive Call where
  | openExtractor (settings : Except Scripting.Exception (List String × Config))
  | newExplorer (args : Scripting.Arguments)
  | getTunables (args : Scripting.Arguments)
  | setTunables (args : Scripting.Arguments)

namespace Job

def openExtractor (texts : List String) (config : Config) : Job Product :=
  .withCatalog fun c => do return (← Extractor.ofTexts c texts config).map .extractor

def newExplorer : Job Product := .withCatalog fun c => return .ok (.explorer ⟨c⟩)

def getTunables : Job Product :=
  .withEngine do return .value (Scripting.ofTunables (← Tunables.current))

def setTunables (tunables : Tunables) : Job Product :=
  .withEngine do
    tunables.apply
    return .value .none

/-- The jobs of calls. -/
inductive IsOfCall : Job Product → Prop
  | openExtractor (texts : List String) (config : Config) : IsOfCall (openExtractor texts config)
  | newExplorer : IsOfCall newExplorer
  | getTunables : IsOfCall getTunables
  | setTunables (tunables : Tunables) : IsOfCall (setTunables tunables)

theorem IsOfCall.isPlain {j : Job Product} (h : j.IsOfCall) : j.IsPlain := by
  cases h with
  | openExtractor texts config =>
    exact fun c => (Extractor.asks_ofTexts c texts config).bind fun _ => .pure _
  | newExplorer => exact fun c => .pure _
  | getTunables => exact Tunables.asks_current.bind fun _ => .pure _
  | setTunables tunables =>
    exact (tunables.asks_apply.mono fun _ => Request.isCatalogQuery_of_isSetting).bind
      fun _ => .pure _

end Job

/-- The catalog was loaded from the engine of the library in the course of these steps. -/
def Library.Gave (l : Library) (R : Responder Libraries) (c : Catalog)
    (events : List (Event Libraries)) : Prop :=
  ∃ σ : R.State, ((l.hold Catalog.load).run R σ).value = .ok c ∧
    ((l.hold Catalog.load).run R σ).events <:+: events

/-- The product uses the engine of the library, with the given catalog. -/
def Product.Uses (l : Library) (catalog : Option Catalog) (events : List (Event Libraries)) :
    Product → Prop
  | extractor x => catalog = some x.catalog ∧
    .call (l, .setup x.pipelines x.config.bufferSize (Int32.ofNat x.config.samplingRate.toNat))
      (some x.configuration) ∈ events
  | explorer x => catalog = some x.catalog
  | value _ => True

theorem Library.Gave.mono {l : Library} {R : Responder Libraries} {c : Catalog}
    {es es' : List (Event Libraries)} (h : l.Gave R c es) (he : es <:+: es') : l.Gave R c es' := by
  obtain ⟨σ, hvalue, hevents⟩ := h
  exact ⟨σ, hvalue, hevents.trans he⟩

theorem Product.Uses.mono {l : Library} {catalog catalog' : Option Catalog}
    {es es' : List (Event Libraries)} {product : Product} (h : product.Uses l catalog es)
    (hc : ∀ c, catalog = some c → catalog' = some c) (he : es ⊆ es') :
    product.Uses l catalog' es' := by
  cases product with
  | extractor x => exact ⟨hc _ h.1, he h.2⟩
  | explorer x => exact hc _ h
  | value v => trivial

/-- The product of a call uses the library and the catalog that the call found. -/
theorem Job.IsOfCall.uses {j : Job Product} {s : SharedEngine} {R : Responder interface}
    {σ : R.State} {o : Outcome interface R.State (Except Error Product × SharedEngine)}
    {product : Product} (h : j.IsOfCall) (ho : j.Ends s R σ o) (hproduct : o.value.1 = .ok product)
    (l : Library) : product.Uses l o.value.2.catalog (o.events.map l.step) := by
  cases h with
  | openExtractor texts config =>
    obtain ⟨c, τ, hc, hvalue, hevents⟩ := ho.exists_next hproduct
    rw [Dialogue.value_bind] at hvalue
    obtain ⟨x, hx, rfl⟩ := map_eq_ok_iff.1 hvalue
    obtain ⟨features, -, hsetup⟩ := Extractor.exists_isSetUp_of_ofTexts hx
    have hcall : Event.call (I := interface) (.setup x.pipelines x.config.bufferSize
        (Int32.ofNat x.config.samplingRate.toNat)) (some x.configuration) ∈ o.events := by
      refine hevents.subset ?_
      rw [Dialogue.events_bind, Extractor.events_ofTexts hx, hsetup.config]
      simp
    exact ⟨by rw [hc, hsetup.catalog], List.mem_map.2 ⟨_, hcall, rfl⟩⟩
  | newExplorer =>
    obtain ⟨c, τ, hc, hvalue, -⟩ := ho.exists_next hproduct
    cases hvalue
    exact hc
  | getTunables | setTunables =>
    cases ho
    cases hproduct
    rw [Dialogue.value_bind]
    trivial

namespace Call

/-- The call as the module makes it, among all libraries. What it hands out comes with the library
that it uses. -/
def exchange (s : SharedEngine) (files : LibraryFiles) : Call →
    Dialogue Libraries (Except Scripting.Exception (Library × Product) × SharedEngine)
  | openExtractor settings => do
    let (x, s) ← Scripting.openExtractor s files settings
    return (x.map fun (l, x) => (l, .extractor x), s)
  | newExplorer args => do
    let (x, s) ← Scripting.Explorer.ofShared s files args
    return (x.map fun (l, x) => (l, .explorer x), s)
  | getTunables args => do
    let (v, s) ← Scripting.currentTunables s files args
    return (v.map fun (l, v) => (l, .value v), s)
  | setTunables args => do
    let (v, s) ← Scripting.changeTunables s files args
    return (v.map fun (l, v) => (l, .value v), s)

/-- The call where there is only one engine. -/
def run (s : SharedEngine) (files : LibraryFiles) :
    Call → Talk (Except Scripting.Exception Product × SharedEngine)
  | openExtractor settings => do
    let (x, s) ← SharedEngine.alone (Scripting.openExtractor s files settings)
    return (x.map .extractor, s)
  | newExplorer args => do
    let (x, s) ← Scripting.Explorer.new s files args
    return (x.map .explorer, s)
  | getTunables args => do
    let (v, s) ← Scripting.getTunables s files args
    return (v.map .value, s)
  | setTunables args => do
    let (v, s) ← Scripting.setTunables s files args
    return (v.map .value, s)

/-- What is handed out without its library is the same, whatever it is called. -/
theorem alone_map {α : Type} (f : α → Product)
    (d : Dialogue Libraries (Except Scripting.Exception (Library × α) × SharedEngine)) :
    SharedEngine.alone (do
      let (a, s) ← d
      return (a.map fun (l, a) => (l, f a), s)) = (do
      let (a, s) ← SharedEngine.alone d
      return (a.map f, s)) := by
  rw [SharedEngine.alone, SharedEngine.alone, Dialogue.unnamed_bind, bind_assoc, bind_assoc]
  refine bind_congr fun o => ?_
  obtain ⟨e | a, s⟩ := o <;> rfl

/-- Without the names of libraries, the call among all of them is the one with a single engine. -/
theorem alone_exchange (s : SharedEngine) (files : LibraryFiles) (call : Call) :
    SharedEngine.alone (call.exchange s files) = call.run s files := by
  cases call with
  | openExtractor settings => exact alone_map _ _
  | newExplorer args => exact alone_map _ _
  | getTunables args => exact alone_map _ _
  | setTunables args => exact alone_map _ _

/-- The path under which the call asks for the library, and its job. -/
def job : Call → Except Scripting.Exception (String × Job Product)
  | openExtractor settings => settings.map fun (texts, config) =>
    (config.libraryPath, .openExtractor texts config)
  | newExplorer args => (Scripting.readLibraryPath args).map fun path => (path, .newExplorer)
  | getTunables args => (Scripting.readLibraryPath args).map fun path => (path, .getTunables)
  | setTunables args => (Scripting.readTunables args).map fun (tunables, path) =>
    (path, .setTunables tunables)

theorem isOfCall_job {call : Call} {path : String} {j : Job Product}
    (h : call.job = .ok (path, j)) : j.IsOfCall := by
  cases call <;> obtain ⟨read, -, h⟩ := map_eq_ok_iff.1 h <;> cases h
  · exact .openExtractor _ _
  · exact .newExplorer
  · exact .getTunables
  · exact .setTunables _

/-- A call is its job, unless it cannot be read. -/
theorem exchange_eq (s : SharedEngine) (files : LibraryFiles) (call : Call) :
    call.exchange s files = match call.job with
      | .error x => pure (.error x, s)
      | .ok (path, j) => do
        let (a, s) ← s.exchange files path j
        return (a.mapError .failed, s) := by
  cases call with
  | openExtractor settings =>
    obtain x | ⟨texts, config⟩ := settings
    · rfl
    · simp only [exchange, Scripting.openExtractor, SharedEngine.setUp, job, Except.map,
        Job.openExtractor, SharedEngine.exchange_withCatalog, bind_assoc]
      refine bind_congr fun o => ?_
      obtain ⟨e | ⟨l, c⟩, s⟩ := o
      · rfl
      · simp only [Library.hold_bind, bind_assoc]
        refine bind_congr fun x => ?_
        cases x <;> rfl
  | newExplorer args =>
    rw [exchange, job, Scripting.Explorer.ofShared]
    cases Scripting.readLibraryPath args with
    | error x => rfl
    | ok path =>
      simp only [Except.map, Job.newExplorer, SharedEngine.exchange_withCatalog, bind_assoc]
      refine bind_congr fun o => ?_
      obtain ⟨e | ⟨l, c⟩, s⟩ := o <;> rfl
  | getTunables args =>
    rw [exchange, job, Scripting.currentTunables]
    cases Scripting.readLibraryPath args with
    | error x => rfl
    | ok path =>
      simp only [Except.map, Job.getTunables, SharedEngine.exchange_withEngine, bind_assoc]
      refine bind_congr fun o => ?_
      obtain ⟨e | l, s⟩ := o
      · rfl
      · simp only [Library.hold_bind, bind_assoc]
        rfl
  | setTunables args =>
    rw [exchange, job, Scripting.changeTunables]
    cases Scripting.readTunables args with
    | error x => rfl
    | ok settings =>
      simp only [Except.map, Job.setTunables, SharedEngine.exchange_withEngine, bind_assoc]
      refine bind_congr fun o => ?_
      obtain ⟨e | l, s⟩ := o
      · rfl
      · simp only [Library.hold_bind, bind_assoc]
        rfl

end Call

/-- A call, and what the loader finds at the time. -/
structure Operation where
  files : LibraryFiles
  call : Call

namespace Operation

/-- The path under which the library is asked for, unless the call cannot be read. -/
def path? (op : Operation) : Option String := op.call.job.toOption.map (·.1)

/-- The library that is loaded if there is none. -/
def library? (op : Operation) : Option Library :=
  op.path?.bind fun path => (Library.load path (op.files path)).toOption

/-- The catalog that is loaded from a library if there is none. -/
def catalog? (op : Operation) (R : Responder Libraries) (library : Option Library) (σ : R.State) :
    Option Catalog :=
  match op.call.job, library with
  | .ok (_, j), some l => j.loads? (R.engineOf l) σ
  | _, _ => none

/-- What is written to the log where the library is there. -/
def warnings (op : Operation) (library : Option Library) : List LogLine :=
  match op.path?, library with
  | some path, some l => l.warnings path
  | _, _ => []

variable {op : Operation} {path : String} {j : Job Product}

theorem path?_of_job (h : op.call.job = .ok (path, j)) : op.path? = some path := by
  rw [path?, h]
  rfl

theorem path?_of_error {x : Scripting.Exception} (h : op.call.job = .error x) :
    op.path? = none := by
  rw [path?, h]
  rfl

/-- What the library is found to be is what is shared or what the operation loads. -/
theorem found?_of_job (h : op.call.job = .ok (path, j)) (s : SharedEngine) :
    s.found? op.files path = s.library.or op.library? := by
  rw [library?, path?_of_job h]
  rfl

/-- The operation among all libraries; what it hands out comes with the library that it uses. -/
def exchange (op : Operation) (s : SharedEngine) :
    Dialogue Libraries (Except Scripting.Exception (Library × Product) × SharedEngine) :=
  op.call.exchange s op.files

end Operation

end AudioFeatures
