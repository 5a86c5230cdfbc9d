import AudioFeatures.Engine.Request
import Mathlib

/-! # The ledger

What the engine handed over and did not get back yet. A resource that was handed over twice counts
twice. Only what is outstanding can be given back or used, and the accounts of a dialogue are put
together from those of its parts.
-/

namespace AudioFeatures.Engine

/-- What the engine hands over and wants back. -/
inductive Resource where
  | names (l : NameList)
  | details (d : Details)
  | converters (l : ConverterList)
  | batch (b : Batch)
  | times (r : TimeReport)
  | configuration (c : Configuration)

namespace Request

/-- What is handed over with a reply; a setup that fails hands over nothing. -/
def acquired : (q : Request) → q.Reply → Multiset Resource
  | queryTransforms, l => {.names l}
  | queryDetails _, d => {.details d}
  | queryConverters, l => {.converters l}
  | setup .., some c => {.configuration c}
  | extract .., x => {.batch x.batch}
  | queryTimes _, r => {.times r}
  | _, _ => 0

/-- What is given back. -/
def released : Request → Multiset Resource
  | releaseTransforms l => {.names l}
  | releaseDetails d => {.details d}
  | releaseConverters l => {.converters l}
  | releaseBatch b => {.batch b}
  | releaseTimes r => {.times r}
  | destroy c => {.configuration c}
  | _ => 0

/-- What must be outstanding and remains so. -/
def used : Request → Multiset Resource
  | extract c .. | queryTimes c | reportGraph c _ => {.configuration c}
  | _ => 0

end Request

def acquiredBy : Event interface → Multiset Resource
  | .call q r => q.acquired r
  | .line _ => 0

def releasedBy : Event interface → Multiset Resource
  | .call q _ => q.released
  | .line _ => 0

/-- The events lead from the resources outstanding before to those outstanding after them. -/
inductive Accounts : Multiset Resource → List (Event interface) → Multiset Resource → Prop
  | nil (s : Multiset Resource) : Accounts s [] s
  | call {q : Request} {r : q.Reply} {es s t} : q.used ≤ s → Accounts (q.acquired r + s) es t →
      Accounts (q.released + s) (.call q r :: es) t
  | line {l : LogLine} {es s t} : Accounts s es t → Accounts s (.line l :: es) t

variable {s t u : Multiset Resource} {es es' : List (Event interface)}

namespace Accounts

theorem append (h : Accounts s es t) (h' : Accounts t es' u) : Accounts s (es ++ es') u := by
  induction h with
  | nil s => exact h'
  | call hu _ ih => exact .call hu (ih h')
  | line _ ih => exact .line (ih h')

theorem balance (h : Accounts s es t) :
    s + (es.map acquiredBy).sum = (es.map releasedBy).sum + t := by
  induction h with
  | nil s => simp
  | @call q r es s t _ _ ih =>
    simp only [List.map_cons, List.sum_cons, acquiredBy, releasedBy]
    rw [Multiset.add_assoc, Multiset.add_assoc, ← ih, Multiset.add_comm (q.acquired r) s,
      Multiset.add_assoc]
  | line _ ih => simpa [acquiredBy, releasedBy] using ih

end Accounts

/-- The second request gives back what the first hands over, and does nothing else. -/
structure Returns (q : Request) (release : q.Reply → Request) : Prop where
  keeps : q.released = 0
  returned : ∀ r, q.acquired r = (release r).released
  unused : ∀ r, (release r).used = 0
  final : ∀ r a, (release r).acquired a = 0

theorem returns_transforms : Returns .queryTransforms .releaseTransforms :=
  ⟨rfl, fun _ => rfl, fun _ => rfl, fun _ _ => rfl⟩

theorem returns_details (name : String) : Returns (.queryDetails name) .releaseDetails :=
  ⟨rfl, fun _ => rfl, fun _ => rfl, fun _ _ => rfl⟩

theorem returns_converters : Returns .queryConverters .releaseConverters :=
  ⟨rfl, fun _ => rfl, fun _ => rfl, fun _ _ => rfl⟩

theorem returns_times (c : Configuration) : Returns (.queryTimes c) .releaseTimes :=
  ⟨rfl, fun _ => rfl, fun _ => rfl, fun _ _ => rfl⟩

/-- Whatever the engine replies, the accounts of the dialogue lead from `s` to what `t` says about
its value. -/
def Keeps {α : Type} (s : Multiset Resource) (d : Talk α) (t : α → Multiset Resource) : Prop :=
  ∀ (R : Responder interface) (σ : R.State),
    Accounts s (d.run R σ).events (t (d.run R σ).value)

namespace Keeps

variable {α β : Type} {d : Talk α} {f : α → Talk β} {k : α → Multiset Resource}
  {m : β → Multiset Resource}

theorem pure {a : α} (h : s = k a) : Keeps s (Pure.pure a) k := by
  intro R σ
  rw [h]
  exact .nil _

theorem bind (h : Keeps s d k) (h' : ∀ a, Keeps (k a) (f a) m) : Keeps s (d >>= f) m := by
  intro R σ
  show Accounts s ((Dialogue.bind d f).run R σ).events (m ((Dialogue.bind d f).run R σ).value)
  rw [Dialogue.run_bind]
  exact (h R σ).append (h' _ R _)

theorem ask {q : Request} (h : q.used ≤ s) :
    Keeps (q.released + s) (Engine.ask q) fun r => q.acquired r + s :=
  fun _ _ => .call h (.nil _)

theorem write (line : LogLine) : Keeps s (Dialogue.write line) fun _ => s :=
  fun _ _ => .line (.nil _)

theorem writeAll (lines : List LogLine) : Keeps s (Dialogue.writeAll lines) fun _ => s := by
  induction lines with
  | nil => exact pure rfl
  | cons line lines ih => exact (write line).bind fun _ => ih

theorem acquire {q : Request} (hu : q.used ≤ s) (hr : q.released = 0) :
    Keeps s (Engine.ask q) fun r => q.acquired r + s := by
  have h := ask hu
  rwa [hr, Multiset.zero_add] at h

theorem release {q : Request} (hu : q.used = 0) (ha : ∀ r, q.acquired r = 0) :
    Keeps (q.released + s) (Engine.ask q) fun _ => s := by
  have h := ask (q := q) (s := s) (by rw [hu]; exact Multiset.zero_le s)
  simpa only [ha, Multiset.zero_add] using h

/-- A request that hands over nothing and gives nothing back. -/
theorem neutral {q : Request} (hu : q.used ≤ s) (hr : q.released = 0)
    (ha : ∀ r, q.acquired r = 0) : Keeps s (Engine.ask q) fun _ => s := by
  simpa only [ha, Multiset.zero_add] using acquire hu hr

/-- What a bracket acquires is outstanding while it is used, and not after it. -/
theorem bracket {q : Request} {release : q.Reply → Request} {use : q.Reply → Talk α}
    (hq : q.used ≤ s) (h : Returns q release)
    (huse : ∀ r, Keeps (q.acquired r + s) (use r) fun _ => q.acquired r + s) :
    Keeps s (Engine.bracket q release use) fun _ => s := by
  refine (acquire hq h.keeps).bind fun r => (huse r).bind fun a => ?_
  rw [h.returned]
  exact (Keeps.release (h.unused r) (h.final r)).bind fun _ => pure rfl

end Keeps

end AudioFeatures.Engine
