import AudioFeatures.Engine.Request

/-! # Dialogues part by part

The value, the state and the steps of a dialogue come from those of its parts. A dialogue that keeps
to questions of a kind takes only steps of that kind.
-/

namespace AudioFeatures

variable {I : Interface} {α β : Type}

/-- The line that a step writes to the log. -/
def Event.line? : Event I → Option LogLine
  | .call _ _ => none
  | .line l => some l

namespace Dialogue

theorem run_then (d : Dialogue I α) (k : α → Dialogue I β) (R : Responder I) (s : R.State) :
    (d >>= k).run R s =
      let o := d.run R s
      let p := (k o.value).run R o.state
      ⟨p.value, p.state, o.events ++ p.events⟩ := run_bind R d k s

theorem value_bind (d : Dialogue I α) (k : α → Dialogue I β) (R : Responder I) (s : R.State) :
    ((d >>= k).run R s).value = ((k (d.run R s).value).run R (d.run R s).state).value := by
  rw [run_then]

theorem state_bind (d : Dialogue I α) (k : α → Dialogue I β) (R : Responder I) (s : R.State) :
    ((d >>= k).run R s).state = ((k (d.run R s).value).run R (d.run R s).state).state := by
  rw [run_then]

theorem events_bind (d : Dialogue I α) (k : α → Dialogue I β) (R : Responder I) (s : R.State) :
    ((d >>= k).run R s).events =
      (d.run R s).events ++ ((k (d.run R s).value).run R (d.run R s).state).events := by
  rw [run_then]

theorem events_request (q : I.Request) (R : Responder I) (s : R.State) :
    ((request q).run R s).events = [.call q ((request q).run R s).value] := rfl

/-- A partner that is not asked stays as it is. -/
theorem state_of_events_eq_nil {d : Dialogue I α} {R : Responder I} {s : R.State}
    (h : (d.run R s).events = []) : (d.run R s).state = s := by
  cases d with
  | done a => rfl
  | ask q next => cases h
  | log line next => cases h

/-- Only questions of a kind are asked, and nothing is written to the log. -/
def Asks (p : I.Request → Prop) : Dialogue I α → Prop
  | done _ => True
  | ask q next => p q ∧ ∀ r, (next r).Asks p
  | log _ _ => False

namespace Asks

variable {p : I.Request → Prop} {d : Dialogue I α} {k : α → Dialogue I β}

theorem pure (a : α) : (Pure.pure a : Dialogue I α).Asks p := trivial

theorem request {q : I.Request} (h : p q) : (request q).Asks p := ⟨h, fun _ => trivial⟩

theorem bind (h : d.Asks p) (hk : ∀ a, (k a).Asks p) : (d >>= k).Asks p := by
  induction d with
  | done a => exact hk a
  | ask q next ih => exact ⟨h.1, fun r => ih r (h.2 r)⟩
  | log line next => exact h.elim

theorem mono {p' : I.Request → Prop} (h : d.Asks p) (hp : ∀ q, p q → p' q) : d.Asks p' := by
  induction d with
  | done a => trivial
  | ask q next ih => exact ⟨hp q h.1, fun r => ih r (h.2 r)⟩
  | log line next => exact h.elim

/-- Each step is a question of the kind. -/
theorem exists_call {R : Responder I} {s : R.State} {e : Event I} (h : d.Asks p)
    (he : e ∈ (d.run R s).events) : ∃ q r, p q ∧ e = .call q r := by
  induction d generalizing s with
  | done a => cases he
  | ask q next ih =>
    rcases List.mem_cons.1 he with rfl | he
    · exact ⟨q, _, h.1, rfl⟩
    · exact ih _ (h.2 _) he
  | log line next => exact h.elim

theorem lines_eq_nil {R : Responder I} {s : R.State} (h : d.Asks p) :
    (d.run R s).events.filterMap Event.line? = [] := by
  refine List.filterMap_eq_nil_iff.2 fun e he => ?_
  obtain ⟨q, r, -, rfl⟩ := h.exists_call he
  rfl

end Asks

end Dialogue

/-! ## Brackets -/

namespace Engine

/-- Whatever its use comes to, what a bracket acquires is given back after it. -/
theorem run_bracket (q : Request) (release : q.Reply → Request)
    (use : q.Reply → Talk α) (R : Responder interface) (σ : R.State) :
    (bracket q release use).run R σ =
      let r := (R.reply q σ).1
      let o := (use r).run R (R.reply q σ).2
      let e := R.reply (release r) o.state
      ⟨o.value, e.2, .call q r :: (o.events ++ [.call (release r) e.1])⟩ := by
  show Dialogue.run R (Dialogue.ask q fun r => (use r).bind fun a =>
    .ask (release r) fun _ => .done a) σ = _
  rw [Dialogue.run]
  simp only [Dialogue.run_bind, Dialogue.run]

theorem asks_bracket {p : Request → Prop} {q : Request} {release : q.Reply → Request}
    {use : q.Reply → Talk α} (hq : p q) (hrelease : ∀ r, p (release r))
    (huse : ∀ r, (use r).Asks p) : (bracket q release use).Asks p :=
  (Dialogue.Asks.request (I := interface) hq).bind fun r => (huse r).bind fun _ =>
    (Dialogue.Asks.request (I := interface) (hrelease r)).bind fun _ => .pure _

end Engine

end AudioFeatures
