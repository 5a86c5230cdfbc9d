import AudioFeatures.Error

/-! # Dialogues

A dialogue is a computation that puts questions to a partner and goes on with the replies; on the
way it may write to the log. What the partner says is left open, so that a dialogue can be run with
any partner and statements about it hold for all of them.
-/

namespace AudioFeatures

/-- The questions that can be asked, and what the replies to each of them are. -/
structure Interface where
  Request : Type
  Reply : Request → Type

inductive Dialogue (I : Interface) (α : Type) : Type where
  | done (a : α)
  | ask (q : I.Request) (next : I.Reply q → Dialogue I α)
  | log (line : LogLine) (next : Dialogue I α)

namespace Dialogue

variable {I J : Interface} {α β γ : Type}

def bind : Dialogue I α → (α → Dialogue I β) → Dialogue I β
  | done a, f => f a
  | ask q next, f => ask q fun r => (next r).bind f
  | log line next, f => log line (next.bind f)

instance : Monad (Dialogue I) where
  pure := done
  bind := bind

def request (q : I.Request) : Dialogue I (I.Reply q) := ask q done

def write (line : LogLine) : Dialogue I Unit := log line (done ())

def writeAll (lines : List LogLine) : Dialogue I Unit := lines.forM write

/-- The same dialogue with another partner: each question becomes a dialogue of its own. -/
def via (serve : (q : I.Request) → Dialogue J (I.Reply q)) : Dialogue I α → Dialogue J α
  | done a => done a
  | ask q next => (serve q).bind fun r => (next r).via serve
  | log line next => log line (next.via serve)

theorem bind_done (d : Dialogue I α) : d.bind done = d := by
  induction d with
  | done a => rfl
  | ask q next ih => exact congrArg _ (funext ih)
  | log line next ih => exact congrArg _ ih

theorem bind_assoc (d : Dialogue I α) (f : α → Dialogue I β) (g : β → Dialogue I γ) :
    (d.bind f).bind g = d.bind fun a => (f a).bind g := by
  induction d with
  | done a => rfl
  | ask q next ih => exact congrArg _ (funext ih)
  | log line next ih => exact congrArg _ ih

instance : LawfulMonad (Dialogue I) :=
  .mk' _ (fun d => bind_done d) (fun _ _ => rfl) bind_assoc

end Dialogue

/-- One step of a dialogue that was held. -/
inductive Event (I : Interface) where
  | call (q : I.Request) (r : I.Reply q)
  | line (l : LogLine)

/-- A partner: what it replies depends on its state, which every question may change. -/
structure Responder (I : Interface) where
  State : Type
  reply : (q : I.Request) → State → I.Reply q × State

/-- How a dialogue ended, the state that the partner is left in, and the steps on the way. -/
structure Outcome (I : Interface) (σ α : Type) where
  value : α
  state : σ
  events : List (Event I)

namespace Dialogue

variable {I : Interface} {α β : Type}

def run (R : Responder I) : Dialogue I α → R.State → Outcome I R.State α
  | done a, s => ⟨a, s, []⟩
  | ask q next, s =>
    let (r, s) := R.reply q s
    let o := (next r).run R s
    { o with events := .call q r :: o.events }
  | log line next, s =>
    let o := next.run R s
    { o with events := .line line :: o.events }

/-- A dialogue is held part by part. -/
theorem run_bind (R : Responder I) (d : Dialogue I α) (f : α → Dialogue I β) (s : R.State) :
    (d.bind f).run R s =
      let o := d.run R s
      let p := (f o.value).run R o.state
      ⟨p.value, p.state, o.events ++ p.events⟩ := by
  induction d generalizing s with
  | done a => rfl
  | ask q next ih => simp only [bind, run, ih, List.cons_append]
  | log line next ih => simp only [bind, run, ih, List.cons_append]

end Dialogue

end AudioFeatures
