import AudioFeatures.Engine.Library
import AudioFeatures.Engine.Scripted
import AudioFeatures.Proofs.Extractor.Results
import AudioFeatures.Proofs.Extractor.Session

/-! # Sessions with a library

A library hands over pointers and gets them back with one call for each list. Of what it hands over
in a session everything was given back or is still held, but for reports of times that come without
names: these are never given back.
-/

namespace AudioFeatures

open Engine

namespace Engine.Resource

/-- Some pointer of the resource is not null. -/
def hasPointer : Resource → Bool
  | names l => l.items.isSome
  | details d => d.description.isSome || d.inputFormat.isSome || d.outputFormat.isSome ||
      d.parameterNames.isSome || d.parameterDescriptions.isSome || d.parameterDefaults.isSome
  | converters l => l.inputs.isSome || l.outputs.isSome
  | batch b => b.names.isSome || b.values.isSome || b.lengths.isSome
  | times r => r.names.isSome || r.values.isSome
  | configuration _ => true

/-- A report with values and a null pointer for the names. -/
def isNameless : Resource → Bool
  | times r => r.names.isNone && r.values.isSome
  | _ => false

/-- The library is called to take it back. It is called for details and results in any case. -/
def isReturned : Resource → Bool
  | names l => l.items.isSome
  | converters l => l.inputs.isSome || l.outputs.isSome
  | times r => r.names.isSome
  | _ => true

theorem hasPointer_eq_true_iff {a : Resource} :
    a.hasPointer = true ↔
      (a.hasPointer = true ∧ a.isReturned = true) ∨ a.isNameless = true := by
  cases a with
  | times r => cases hn : r.names <;> simp [hasPointer, isReturned, isNameless, hn]
  | _ => simp [hasPointer, isReturned, isNameless]

theorem isNameless_of_isReturned {a : Resource} (h : a.isReturned = true) :
    a.isNameless = false := by
  cases a with
  | times r => cases hn : r.names <;> simp_all [isReturned, isNameless]
  | _ => rfl

end Engine.Resource

namespace Library

variable {α : Type} {R : Responder interface}

/-- What a library hands over. The number of results is the caller's, not its own. -/
def handedOver : Event interface → Multiset Resource
  | .call (.extract _ _ featureCount) r => {.batch { r.batch with count := featureCount }}
  | e => acquiredBy e

/-- The library as the partner of a dialogue. -/
def partner (R : Responder interface) : Responder interface where
  State := R.State
  reply q s := (((serve q).run R s).value, ((serve q).run R s).state)

theorem sum_serve (q : Request) (s : R.State) :
    (((serve q).run R s).events.map handedOver).sum = q.acquired ((serve q).run R s).value ∧
      (((serve q).run R s).events.map releasedBy).sum =
        q.released.filter fun a => a.isReturned := by
  cases q with
  | releaseTransforms l =>
    obtain ⟨items, length⟩ := l
    cases items <;> exact ⟨rfl, rfl⟩
  | releaseConverters l =>
    obtain ⟨inputs, outputs, length⟩ := l
    cases inputs <;> cases outputs <;> exact ⟨rfl, rfl⟩
  | releaseTimes r =>
    obtain ⟨names, values, length⟩ := r
    cases names <;> exact ⟨rfl, rfl⟩
  | setup pipelines bufferSize samplingRate =>
    rw [serve]
    split
    · exact ⟨Multiset.add_zero _, rfl⟩
    · exact ⟨rfl, rfl⟩
  | queryTransforms | queryDetails | queryConverters | extract | queryTimes =>
    exact ⟨Multiset.add_zero _, rfl⟩
  | _ => exact ⟨rfl, rfl⟩

/-- Held with a library, a dialogue differs from one with the library as a partner in that lists
which are null pointers are not given back. -/
theorem run_through (d : Talk α) (s : R.State) :
    ((through d).run R s).value = (d.run (partner R) s).value ∧
      ((through d).run R s).state = (d.run (partner R) s).state ∧
      (((through d).run R s).events.map handedOver).sum =
        ((d.run (partner R) s).events.map acquiredBy).sum ∧
      (((through d).run R s).events.map releasedBy).sum =
        ((d.run (partner R) s).events.map releasedBy).sum.filter fun a => a.isReturned := by
  induction d generalizing s with
  | done a => exact ⟨rfl, rfl, rfl, rfl⟩
  | ask q next ih =>
    obtain ⟨hacquired, hreleased⟩ := sum_serve q s
    obtain ⟨hvalue, hstate, hacquired', hreleased'⟩ :=
      ih ((serve q).run R s).value ((serve q).run R s).state
    -- the calls that serve the question come first, then those of the rest
    rw [show (through (.ask q next)).run R s = _ from
      Dialogue.run_bind R (serve q) (fun r => through (next r)) s]
    refine ⟨hvalue, hstate, ?_, ?_⟩
    · rw [List.map_append, List.sum_append, hacquired, hacquired']
      rfl
    · rw [List.map_append, List.sum_append, hreleased, hreleased', ← Multiset.filter_add]
      rfl
  | log line next ih =>
    obtain ⟨hvalue, hstate, hacquired, hreleased⟩ := ih s
    refine ⟨hvalue, hstate, ?_, ?_⟩
    · simpa [through, Dialogue.via, Dialogue.run, handedOver, acquiredBy] using hacquired
    · simpa [through, Dialogue.via, Dialogue.run, releasedBy] using hreleased

/-- What is returned and what is nameless together make up all that has a pointer. -/
theorem filter_hasPointer (a : Multiset Resource) :
    a.filter (fun x => x.hasPointer) =
      (a.filter fun x => x.isReturned).filter (fun x => x.hasPointer) +
        a.filter fun x => x.isNameless := by
  have hnone : a.filter (fun x => (x.hasPointer ∧ x.isReturned) ∧ x.isNameless) = 0 :=
    Multiset.filter_eq_nil.2 fun x _ h => by
      simp [Resource.isNameless_of_isReturned h.1.2] at h
  rw [Multiset.filter_filter, Multiset.filter_add_filter, hnone, Multiset.add_zero]
  exact Multiset.filter_congr fun _ _ => Resource.hasPointer_eq_true_iff

/-- Of what a library hands over it gets back what is not held, but for reports without names. -/
theorem filter_handedOver {d : Talk α} {t : α → Multiset Resource} (h : Keeps 0 d t)
    (ht : ∀ a, ∀ x ∈ t a, x.isReturned = true) (s : R.State) :
    let o := (through d).run R s
    (o.events.map handedOver).sum.filter (fun x => x.hasPointer) =
      ((o.events.map releasedBy).sum + t o.value).filter (fun x => x.hasPointer) +
        (o.events.map handedOver).sum.filter fun x => x.isNameless := by
  intro o
  obtain ⟨hvalue, -, hacquired, hreleased⟩ := run_through d s
  have hbalance := (h (partner R) s).balance
  rw [Multiset.zero_add, ← hvalue, ← hacquired] at hbalance
  have hreturned : (o.events.map handedOver).sum.filter (fun x => x.isReturned) =
      (o.events.map releasedBy).sum + t o.value := by
    rw [hreleased, ← Multiset.filter_eq_self.2 (ht o.value), ← Multiset.filter_add, ← hbalance]
  rw [← hreturned]
  exact filter_hasPointer _

end Library

namespace Session

theorem isReturned_of_mem_held {w : Session} {x : Resource} (h : x ∈ w.held) :
    x.isReturned = true := by
  rw [held, Multiset.mem_add, Multiset.mem_coe, Multiset.mem_coe, List.mem_map, List.mem_map] at h
  rcases h with ⟨_, -, rfl⟩ | ⟨_, -, rfl⟩ <;> rfl

open Library in
/-- After any operations, whatever the library answers: each resource with a pointer that is not
null was given back as often as it was handed over or is still held. The only exception are reports
of times without names. -/
theorem handedOver_performAll (R : Responder interface) (s : R.State) (ops : List Operation) :
    let o := (through (performAll {} ops)).run R s
    (o.events.map handedOver).sum.filter (fun x => x.hasPointer) =
      ((o.events.map releasedBy).sum + o.value.held).filter (fun x => x.hasPointer) +
        (o.events.map handedOver).sum.filter fun x => x.isNameless :=
  filter_handedOver (keeps_performAll {} ops) (fun _ _ => isReturned_of_mem_held) s

end Session

/-! ## A report without names -/

namespace Nameless

def report : TimeReport := ⟨none, some [0x3f800000], 1⟩

def library : Responder interface where
  State := Scripted.State
  reply
    | .queryTimes _, s => (report, s)
    | q, s => Scripted.reply q s

end Nameless

/-- The report has a pointer that is not null, and the library is not called for it again. -/
theorem Extractor.events_timingReport_nameless :
    ((Library.through Levels.opened.timingReport).run Nameless.library {}).events =
        [.call (.queryTimes ⟨0⟩) Nameless.report] ∧
      (Resource.times Nameless.report).hasPointer = true := ⟨rfl, rfl⟩

end AudioFeatures
