import AudioFeatures.Proofs.Engine.Dialogue
import AudioFeatures.SharedEngine

/-! # Dialogues among libraries

A dialogue with the engine of one library, among the engines of all libraries, is held as it is with
this engine alone: with the same value and the same steps, each of which names the library.
-/

namespace AudioFeatures

open Engine

variable {α β : Type}

/-- The engine of one library. -/
@[reducible] def Responder.engineOf (R : Responder Libraries) (l : Library) :
    Responder interface where
  State := R.State
  reply q s := R.reply (l, q) s

namespace Library

/-- A step of a dialogue with the engine of the library. -/
def step (l : Library) : Event interface → Event Libraries
  | .call q r => .call (l, q) r
  | .line m => .line m

theorem run_hold (l : Library) (d : Talk α) (R : Responder Libraries) (s : R.State) :
    (l.hold d).run R s =
      let o := d.run (R.engineOf l) s
      ⟨o.value, o.state, o.events.map l.step⟩ := by
  induction d generalizing s with
  | done a => rfl
  | ask q next ih =>
    show Dialogue.run R (.ask (l, q) fun r => l.hold (next r)) s = _
    simp only [Dialogue.run, ih, List.map_cons, step]
  | log line next ih =>
    show Dialogue.run R (.log line (l.hold next)) s = _
    simp only [Dialogue.run, ih, List.map_cons, step]

theorem filterMap_line?_step (l : Library) (es : List (Event interface)) :
    (es.map l.step).filterMap Event.line? = es.filterMap Event.line? := by
  have hline (e : Event interface) : (l.step e).line? = e.line? := by cases e <;> rfl
  rw [List.filterMap_map]
  exact congrArg (fun f => es.filterMap f) (funext hline)

/-- Behind whatever was written to the log, every request is put to the engine of the library. -/
theorem call_mem_steps {l m : Library} {q : Request} {r : q.Reply} {lines : List LogLine}
    {es : List (Event interface)}
    (h : Event.call (I := Libraries) (m, q) r ∈ lines.map .line ++ es.map l.step) :
    m = l ∧ .call q r ∈ es := by
  rcases List.mem_append.1 h with h | h
  · obtain ⟨line, -, hline⟩ := List.mem_map.1 h
    cases hline
  · obtain ⟨e, he, hstep⟩ := List.mem_map.1 h
    cases e with
    | call q' r' =>
      cases hstep
      exact ⟨rfl, he⟩
    | line m => cases hstep

theorem path_of_load {path : String} {file : LibraryFile} {l : Library}
    (h : load path file = .ok l) : l.path = path := by
  unfold load at h
  split at h
  · cases h
  · split at h
    · cases h
    · cases h
      rfl

end Library

namespace Dialogue

theorem via_bind {I J : Interface} (serve : (q : I.Request) → Dialogue J (I.Reply q))
    (d : Dialogue I α) (k : α → Dialogue I β) :
    (d >>= k).via serve = d.via serve >>= fun a => (k a).via serve := by
  induction d with
  | done a => rfl
  | ask q next ih =>
    show (serve q >>= fun r => (next r >>= k).via serve) =
      (serve q >>= fun r => (next r).via serve) >>= fun a => (k a).via serve
    rw [LawfulMonad.bind_assoc]
    exact congrArg _ (funext ih)
  | log line next ih => exact congrArg (log line) ih

theorem unnamed_bind (d : Dialogue Libraries α) (k : α → Dialogue Libraries β) :
    (d >>= k).unnamed = d.unnamed >>= fun a => (k a).unnamed :=
  via_bind _ d k

end Dialogue

theorem Library.hold_bind (l : Library) (d : Talk α) (k : α → Talk β) :
    l.hold (d >>= k) = l.hold d >>= fun a => l.hold (k a) :=
  Dialogue.via_bind _ d k

end AudioFeatures
