import AudioFeatures.Engine.Accounted
import AudioFeatures.Proofs.Extractor.Accounts

/-! # Sessions

A session uses an engine in any order of operations: it loads catalogs, opens and closes extractors,
and keeps the results of extractions for as long as it likes. What is outstanding is at all times
what the open extractors and the kept results hold.
-/

namespace AudioFeatures

open Engine

structure Session where
  /-- The shared catalog. -/
  catalog : Option Catalog := none
  extractors : List Extractor := []
  /-- The results that are kept. -/
  kept : List RawExtraction := []

namespace Session

/-- The operations; those on an extractor or on kept results name it by its place. To read the bytes
of kept results the engine is not asked. -/
inductive Operation where
  | load
  | getOrLoad
  | new (c : Catalog) (features : List Feature) (config : Config)
  | ofTexts (c : Catalog) (texts : List String) (config : Config)
  | calculate (i : Nat) (samples : List Int16)
  | calculateRaw (i : Nat) (samples : List Int16)
  | decode (i : Nat)
  | drop (i : Nat)
  | timingReport (i : Nat)
  | report (i : Nat) (path : Bytes)
  | close (i : Nat)

def opened (w : Session) : Except Error Extractor → Session
  | .ok x => { w with extractors := x :: w.extractors }
  | .error _ => w

def calculated (w : Session) (i : Nat) : Except Error RawExtraction × Extractor → Session
  | (.ok r, x) => { w with extractors := w.extractors.set i x, kept := r :: w.kept }
  | (.error _, x) => { w with extractors := w.extractors.set i x }

/-- Nothing happens in a place that is empty. -/
def onExtractor (w : Session) (i : Nat) (f : Extractor → Talk Session) : Talk Session :=
  match w.extractors[i]? with
  | some x => f x
  | none => return w

def onKept (w : Session) (i : Nat) (f : RawExtraction → Talk Session) : Talk Session :=
  match w.kept[i]? with
  | some r => f r
  | none => return w

def perform (w : Session) : Operation → Talk Session
  | .load => do
    let _ ← Catalog.load
    return w
  | .getOrLoad => do
    let (_, catalog) ← Catalog.getOrLoad w.catalog
    return { w with catalog }
  | .new c features config => return w.opened (← Extractor.new c features config)
  | .ofTexts c texts config => return w.opened (← Extractor.ofTexts c texts config)
  | .calculate i samples => w.onExtractor i fun x => do
    let (_, x) ← x.calculate samples
    return { w with extractors := w.extractors.set i x }
  | .calculateRaw i samples => w.onExtractor i fun x =>
    return w.calculated i (← x.calculateRaw samples)
  | .decode i => w.onKept i fun r => do
    let _ ← r.decodeLogged
    return w
  | .drop i => w.onKept i fun r => do
    r.release
    return { w with kept := w.kept.eraseIdx i }
  | .timingReport i => w.onExtractor i fun x => do
    let _ ← x.timingReport
    return w
  | .report i path => w.onExtractor i fun x => do
    x.report path
    return w
  | .close i => w.onExtractor i fun x => do
    x.close
    return { w with extractors := w.extractors.eraseIdx i }

def performAll (w : Session) (ops : List Operation) : Talk Session := ops.foldlM perform w

/-- What the extractors and the kept results hold. -/
def held (w : Session) : Multiset Resource :=
  (w.extractors.map fun x => .configuration x.configuration : List Resource) +
    (w.kept.map fun r => .batch r.batch : List Resource)

theorem card_held (w : Session) : w.held.card = w.extractors.length + w.kept.length := by
  simp [held]

/-- The part of a list besides one place. -/
theorem coe_map_eraseIdx {α : Type} {l : List α} {i : Nat} {a : α} (f : α → Resource)
    (h : l[i]? = some a) :
    (l.map f : Multiset Resource) = {f a} + ((l.eraseIdx i).map f : List _) := by
  obtain ⟨hi, rfl⟩ := List.getElem?_eq_some_iff.1 h
  exact Multiset.coe_eq_coe.2 ((List.getElem_cons_eraseIdx_perm hi).symm.map f)

theorem coe_map_set {α : Type} {l : List α} {i : Nat} {a : α} (f : α → Resource)
    (h : l[i]? = some a) (b : α) :
    ((l.set i b).map f : Multiset Resource) = {f b} + ((l.eraseIdx i).map f : List _) := by
  obtain ⟨hi, -⟩ := List.getElem?_eq_some_iff.1 h
  exact Multiset.coe_eq_coe.2 ((List.set_perm_cons_eraseIdx hi b).map f)

variable {w : Session} {i : Nat}

theorem held_extractor {x : Extractor} (h : w.extractors[i]? = some x) :
    w.held = x.held + held { w with extractors := w.extractors.eraseIdx i } := by
  rw [held, coe_map_eraseIdx _ h, Multiset.add_assoc]
  rfl

theorem held_set {x : Extractor} (h : w.extractors[i]? = some x) (y : Extractor) :
    held { w with extractors := w.extractors.set i y } =
      y.held + held { w with extractors := w.extractors.eraseIdx i } := by
  rw [held, coe_map_set _ h, Multiset.add_assoc]
  rfl

theorem held_kept {r : RawExtraction} (h : w.kept[i]? = some r) :
    w.held = r.held + held { w with kept := w.kept.eraseIdx i } := by
  rw [held, coe_map_eraseIdx _ h, add_left_comm]
  rfl

theorem held_opened (w : Session) (x : Except Error Extractor) :
    heldBy Extractor.held x + w.held = (w.opened x).held := by
  cases x with
  | ok x => exact (Multiset.add_assoc _ _ _).symm
  | error e => exact Multiset.zero_add _

theorem held_calculated {x : Extractor} (h : w.extractors[i]? = some x)
    (r : Except Error RawExtraction × Extractor) :
    heldBy RawExtraction.held r.1 +
      (r.2.held + held { w with extractors := w.extractors.eraseIdx i }) =
      (w.calculated i r).held := by
  obtain ⟨r | r, y⟩ := r
  · rw [← held_set h y]
    exact Multiset.zero_add _
  · rw [← held_set h y]
    exact add_left_comm _ _ _

theorem keeps_onExtractor {f : Extractor → Talk Session}
    (h : ∀ x, w.extractors[i]? = some x → Keeps w.held (f x) held) :
    Keeps w.held (w.onExtractor i f) held := by
  unfold onExtractor
  split
  · exact h _ ‹_›
  · exact .pure rfl

theorem keeps_onKept {f : RawExtraction → Talk Session}
    (h : ∀ r, w.kept[i]? = some r → Keeps w.held (f r) held) :
    Keeps w.held (w.onKept i f) held := by
  unfold onKept
  split
  · exact h _ ‹_›
  · exact .pure rfl

/-- Every operation leaves outstanding what the session then holds. -/
theorem keeps_perform (w : Session) (op : Operation) : Keeps w.held (w.perform op) held := by
  cases op with
  | load => exact Catalog.keeps_load.bind fun _ => .pure rfl
  | getOrLoad => exact (Catalog.keeps_getOrLoad _).bind fun _ => .pure rfl
  | new c features config =>
    exact (Extractor.keeps_new _ _ _).bind fun x => .pure (w.held_opened x)
  | ofTexts c texts config =>
    exact (Extractor.keeps_ofTexts _ _ _).bind fun x => .pure (w.held_opened x)
  | calculate i samples =>
    refine keeps_onExtractor fun x hx => ?_
    rw [held_extractor hx]
    exact (x.keeps_calculate samples).bind fun r => .pure (held_set hx r.2).symm
  | calculateRaw i samples =>
    refine keeps_onExtractor fun x hx => ?_
    rw [held_extractor hx]
    exact (x.keeps_calculateRaw samples).bind fun r => .pure (held_calculated hx r)
  | decode i =>
    exact keeps_onKept fun r _ => r.keeps_decodeLogged.bind fun _ => .pure rfl
  | drop i =>
    refine keeps_onKept fun r hr => ?_
    rw [held_kept hr]
    exact r.keeps_release.bind fun _ => .pure rfl
  | timingReport i =>
    refine keeps_onExtractor fun x hx => ?_
    have hheld : x.held ≤ w.held := by
      rw [held_extractor hx]
      exact Multiset.le_add_right _ _
    exact (Extractor.keeps_timingReport hheld).bind fun _ => .pure rfl
  | report i path =>
    refine keeps_onExtractor fun x hx => ?_
    have hheld : x.held ≤ w.held := by
      rw [held_extractor hx]
      exact Multiset.le_add_right _ _
    exact (Extractor.keeps_report hheld path).bind fun _ => .pure rfl
  | close i =>
    refine keeps_onExtractor fun x hx => ?_
    rw [held_extractor hx]
    exact x.keeps_close.bind fun _ => .pure rfl

theorem keeps_performAll (w : Session) (ops : List Operation) :
    Keeps w.held (w.performAll ops) held := by
  induction ops generalizing w with
  | nil => exact .pure rfl
  | cons op ops ih => exact (w.keeps_perform op).bind ih

/-- After any operations with any engine the accounts balance: what was handed over is what was
given back and what is held, one resource for each open extractor and each kept result. The next
operation starts from there and gives back and uses only what is outstanding. -/
theorem outstanding_performAll (R : Responder interface) (σ : R.State) (ops : List Operation)
    (op : Operation) :
    let o := (performAll {} ops).run R σ
    let p := (o.value.perform op).run R o.state
    Accounts 0 o.events o.value.held ∧
      (o.events.map acquiredBy).sum = (o.events.map releasedBy).sum + o.value.held ∧
      o.value.held.card = o.value.extractors.length + o.value.kept.length ∧
      Accounts o.value.held p.events p.value.held := by
  intro o p
  have h : Accounts 0 o.events o.value.held := keeps_performAll {} ops R σ
  refine ⟨h, ?_, o.value.card_held, keeps_perform _ op R _⟩
  rw [← h.balance, Multiset.zero_add]

end Session

namespace Engine.Accounted

theorem counters_reply (q : Request) (s : State) :
    (reply q s).2.acquired = s.acquired + (q.acquired (reply q s).1).card ∧
      (reply q s).2.released = s.released + q.released.card := by
  cases q with
  | setup | reportGraph =>
    unfold reply
    dsimp only
    split <;> exact ⟨rfl, rfl⟩
  | _ => exact ⟨rfl, rfl⟩

/-- The engine counts what is handed over and what is given back. -/
theorem counters_run {α : Type} (d : Talk α) (s : State) :
    (d.run engine s).state.acquired =
        s.acquired + ((d.run engine s).events.map acquiredBy).sum.card ∧
      (d.run engine s).state.released =
        s.released + ((d.run engine s).events.map releasedBy).sum.card := by
  induction d generalizing s with
  | done a => exact ⟨rfl, rfl⟩
  | ask q next ih =>
    obtain ⟨ha, hr⟩ := ih (reply q s).1 (reply q s).2
    obtain ⟨ha', hr'⟩ := counters_reply q s
    rw [ha'] at ha
    rw [hr'] at hr
    simp only [Dialogue.run, List.map_cons, List.sum_cons, acquiredBy, releasedBy,
      Multiset.card_add]
    exact ⟨ha.trans (Nat.add_assoc _ _ _), hr.trans (Nat.add_assoc _ _ _)⟩
  | log line next ih => simpa [Dialogue.run, acquiredBy, releasedBy] using ih s

/-- However the engine fails, it misses as many resources as there are open extractors and kept
results. -/
theorem outstanding_session {s : State} (hs : s.acquired = s.released)
    (ops : List Session.Operation) :
    ((Session.performAll {} ops).run engine s).state.outstanding =
      ((Session.performAll {} ops).run engine s).value.extractors.length +
        ((Session.performAll {} ops).run engine s).value.kept.length := by
  obtain ⟨ha, hr⟩ := counters_run (Session.performAll {} ops) s
  have hbalance := (Session.keeps_performAll {} ops engine s).balance
  rw [show Session.held {} = 0 from rfl, Multiset.zero_add] at hbalance
  rw [hbalance, Multiset.card_add, Session.card_held] at ha
  rw [State.outstanding]
  omega

end Engine.Accounted

end AudioFeatures
