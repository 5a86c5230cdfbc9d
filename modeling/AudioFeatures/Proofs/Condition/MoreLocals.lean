import AudioFeatures.Feature.Pipeline
import AudioFeatures.Proofs.Condition.Pass
import AudioFeatures.Proofs.Dict

/-! # More variables

Two passes over the same tokens, the second with more variables. Inside an operand that is passed
over they may compute different values, as a name without a value stands for a made-up one, and may
pass over different operands in turn. None of this moves the cursor or makes a fault, so the passes
stay in step, and the second ends as the first unless that one ended at a name without a value.
-/

namespace AudioFeatures

variable {locals more : Condition.Locals}

namespace Condition

/-- The fault of a name without a value. -/
def Fault.IsUndefinedName (fault : Fault) : Prop := ∃ name, fault = .undefined name

variable {α β γ δ : Type} {k k' : Nat} {R : α → β → Prop} {S : γ → δ → Prop} {m : Step α}
  {m' : Step β}

/-- Values count only where they are not passed over. -/
def Alike (k : Nat) (v w : α) : Prop := k = 0 → v = w

/-- What two passes come to that start at one token, inside `k` and `k'` operands that are passed
over. They stop at one token again, with related values or with the same fault. Only a name without
a value ends the first pass alone, and not inside such an operand. -/
inductive Abreast (k k' : Nat) (R : α → β → Prop) : Outcome α → Outcome β → Prop
  | value {v w pos} : R v w → Abreast k k' R (.ok v, ⟨pos, k⟩) (.ok w, ⟨pos, k'⟩)
  | fault {fault pos} : Abreast k k' R (.error fault, ⟨pos, k⟩) (.error fault, ⟨pos, k'⟩)
  | undefined {name c o} : k = 0 → Abreast k k' R (.error (.undefined name), c) o

def InStep (k k' : Nat) (R : α → β → Prop) (m : Step α) (m' : Step β) : Prop :=
  ∀ pos, Abreast k k' R (outcome m ⟨pos, k⟩) (outcome m' ⟨pos, k'⟩)

theorem InStep.bind {g : α → Step γ} {g' : β → Step δ} (h : InStep k k' R m m')
    (hg : ∀ v w, R v w → InStep k k' S (g v) (g' w)) :
    InStep k k' S (m >>= g) (m' >>= g') := by
  intro pos
  have h := h pos
  generalize ho : outcome m ⟨pos, k⟩ = o at h
  generalize ho' : outcome m' ⟨pos, k'⟩ = o' at h
  cases h with
  | value hr =>
    rw [outcome_bind_ok ho, outcome_bind_ok ho']
    exact hg _ _ hr _
  | fault =>
    rw [outcome_bind_error ho, outcome_bind_error ho']
    exact .fault
  | undefined hk =>
    rw [outcome_bind_error ho]
    exact .undefined hk

theorem inStep_pure {v : α} {w : β} (h : R v w) : InStep k k' R (pure v) (pure w) :=
  fun _ => .value h

theorem inStep_throw (fault : Fault) : InStep k k' R (throw fault) (throw fault) :=
  fun _ => .fault

/-! ## Operands that are passed over -/

/-- Passing over on one side only keeps the passes in step, whatever the values are. -/
theorem InStep.skip_left {R : Value → β → Prop} {m : Step Value} (h : InStep (k + 1) k' R m m') :
    InStep k k' (fun _ _ => True) (Evaluator.skip m) m' := by
  intro pos
  have h := h pos
  generalize ho : outcome m ⟨pos, k + 1⟩ = o at h
  generalize outcome m' ⟨pos, k'⟩ = o' at h ⊢
  rw [Evaluator.outcome_skip ho]
  cases h with
  | value => exact .value trivial
  | fault => exact .fault
  | undefined hk => cases hk

theorem InStep.skip_right {R : α → Value → Prop} {m' : Step Value} (h : InStep k (k' + 1) R m m') :
    InStep k k' (fun _ _ => True) m (Evaluator.skip m') := by
  intro pos
  have h := h pos
  generalize outcome m ⟨pos, k⟩ = o at h ⊢
  generalize ho : outcome m' ⟨pos, k' + 1⟩ = o' at h
  rw [Evaluator.outcome_skip ho]
  cases h with
  | value => exact .value trivial
  | fault => exact .fault
  | undefined hk => exact .undefined hk

theorem inStep_settle {r r' : Except Fault Value} (hk : k = 0 ↔ k' = 0)
    (h : k = 0 → AgreesUnless Fault.IsUndefinedName r r') :
    InStep k k' (Alike k) (Evaluator.settle r) (Evaluator.settle r') := by
  intro pos
  rw [Evaluator.outcome_settle, Evaluator.outcome_settle]
  by_cases h0 : k = 0
  · obtain rfl := h0
    obtain rfl := hk.1 rfl
    rw [settled_zero, settled_zero]
    obtain rfl | ⟨fault, ⟨name, rfl⟩, rfl⟩ := h rfl
    · cases r' with
      | ok v => exact .value fun _ => rfl
      | error fault => exact .fault
    · exact .undefined rfl
  · obtain ⟨v, hv⟩ := exists_settled (r := r) (Nat.pos_of_ne_zero h0)
    obtain ⟨w, hw⟩ := exists_settled (r := r') (Nat.pos_of_ne_zero fun h => h0 (hk.2 h))
    rw [hv, hw]
    exact .value fun h => absurd h h0

/-- Where values are made up one pass may pass over an operand that the other evaluates. -/
theorem inStep_connected {m m' : Step Value} {passed passed' w : Bool} (hk : k = 0 ↔ k' = 0)
    (hp : Alike k passed passed')
    (hm : ∀ j j', (j = 0 ↔ j' = 0) → InStep j j' (Alike j) m m') :
    InStep k k' (Alike k) (Evaluator.connected passed w m) (Evaluator.connected passed' w m') := by
  cases passed <;> cases passed'
  · exact (hm k k' hk).bind fun _ _ h => inStep_pure fun h0 => by rw [h h0]
  · have h0 : k ≠ 0 := fun h => Bool.false_ne_true (hp h)
    exact (hm k (k' + 1) (by omega)).skip_right.bind fun _ _ _ => inStep_pure fun h => absurd h h0
  · have h0 : k ≠ 0 := fun h => Bool.false_ne_true (hp h).symm
    exact (hm (k + 1) k' (by omega)).skip_left.bind fun _ _ _ => inStep_pure fun h => absurd h h0
  · exact (hm (k + 1) (k' + 1) (by omega)).skip_left.skip_right.bind fun _ _ _ =>
      inStep_pure fun _ => rfl

/-! ## Two passes over the same tokens -/

/-- The second pass has the same tokens and more variables. -/
structure Widened (x y : Evaluator) : Prop where
  tokens : x.tokens = y.tokens
  locals : x.locals ⊆ y.locals

variable {x y : Evaluator} {n : Nat}

namespace Widened

theorem peek (h : Widened x y) : InStep k k' Eq x.peek y.peek := by
  intro pos
  rw [Evaluator.outcome_peek, Evaluator.outcome_peek]
  exact .value (by rw [Evaluator.rest, Evaluator.rest, h.tokens])

theorem eatAmong (h : Widened x y) (among : Symbol → Option α) :
    InStep k k' Eq (x.eatAmong among) (y.eatAmong among) := by
  refine h.peek.bind ?_
  rintro t _ rfl
  split
  · exact InStep.bind (R := Eq) (fun _ => .value rfl) fun _ _ _ => inStep_pure rfl
  · exact inStep_pure rfl

theorem eat (h : Widened x y) (s : Symbol) : InStep k k' Eq (x.eat s) (y.eat s) :=
  (h.eatAmong _).bind fun _ _ he => inStep_pure (by rw [he])

theorem word (h : Widened x y) (hk : k = 0 ↔ k' = 0) (name : String) :
    InStep k k' (Alike k) (x.word name) (y.word name) := by
  unfold Evaluator.word
  split
  · exact inStep_pure fun _ => rfl
  · exact inStep_pure fun _ => rfl
  · exact inStep_pure fun _ => rfl
  · exact inStep_pure fun _ => rfl
  · exact inStep_throw _
  · exact inStep_throw _
  · exact inStep_throw _
  · refine inStep_settle hk fun _ => ?_
    cases hv : x.locals.get? name with
    | none => exact .error ⟨name, rfl⟩ _
    | some v =>
      rw [h.locals name v hv]
      exact .refl _

end Widened

/-- Two passes with some fuel stay in step, from wherever they start. -/
structure Paired (x y : Evaluator) (n : Nat) : Prop where
  level : ∀ l k k', (k = 0 ↔ k' = 0) → InStep k k' (Alike k) (x.level l n) (y.level l n)
  more : ∀ l k k' v w, (k = 0 ↔ k' = 0) → Alike k v w →
    InStep k k' (Alike k) (x.more l n v) (y.more l n w)
  links : ∀ k k' v w holds holds', (k = 0 ↔ k' = 0) → Alike k v w → Alike k holds holds' →
    InStep k k' (Alike k) (x.comparisonMore n v holds) (y.comparisonMore n w holds')

namespace Paired

variable {v w : Value} {l : Level}

theorem level_joining (h : Paired x y n) (hk : k = 0 ↔ k' = 0) (hl : l.joining = true) :
    InStep k k' (Alike k) (x.level l (n + 1)) (y.level l (n + 1)) := by
  rw [Evaluator.level_of_joining hl, Evaluator.level_of_joining hl]
  exact (h.level l.next k k' hk).bind fun v w hv => h.more l k k' v w hk hv

theorem more_connective (h : Paired x y n) (hxy : Widened x y) (hk : k = 0 ↔ k' = 0)
    (hv : Alike k v w) (l : Level) (s : Symbol) (b : Bool) :
    InStep k k' (Alike k) (x.moreConnective l s b n v) (y.moreConnective l s b n w) := by
  refine (hxy.eat s).bind ?_
  rintro found _ rfl
  split
  · have hp : Alike k (v.truthy == b) (w.truthy == b) := fun h0 => by rw [hv h0]
    exact (inStep_connected hk hp (h.level l.next)).bind fun _ _ => h.more l k k' _ _ hk
  · exact inStep_pure hv

theorem more_arithmetic (h : Paired x y n) (hxy : Widened x y) (hk : k = 0 ↔ k' = 0)
    (hv : Alike k v w) (l : Level) (among : Symbol → Option Arithmetic) :
    InStep k k' (Alike k) (x.moreArithmetic l among n v) (y.moreArithmetic l among n w) := by
  refine (hxy.eatAmong among).bind ?_
  rintro op _ rfl
  split
  · refine (h.level l.next k k' hk).bind fun v' w' hv' => ?_
    refine (inStep_settle hk fun h0 => ?_).bind fun _ _ => h.more l k k' _ _ hk
    rw [hv h0, hv' h0]
    exact .refl _
  · exact inStep_pure hv

theorem level_negation (h : Paired x y n) (hxy : Widened x y) (hk : k = 0 ↔ k' = 0) :
    InStep k k' (Alike k) (x.negation (n + 1)) (y.negation (n + 1)) := by
  rw [Evaluator.negation, Evaluator.negation]
  refine (hxy.eat .negation).bind ?_
  rintro b _ rfl
  split
  · exact (h.level .negation k k' hk).bind fun _ _ hv => inStep_pure fun h0 => by rw [hv h0]
  · exact h.level .comparison k k' hk

theorem level_comparison (h : Paired x y n) (hk : k = 0 ↔ k' = 0) :
    InStep k k' (Alike k) (x.comparison (n + 1)) (y.comparison (n + 1)) := by
  rw [Evaluator.comparison, Evaluator.comparison]
  exact (h.level .sum k k' hk).bind fun v w hv =>
    h.links k k' v w none none hk hv fun _ => rfl

theorem links_succ (h : Paired x y n) (hxy : Widened x y) (hk : k = 0 ↔ k' = 0)
    {holds holds' : Option Bool} (hv : Alike k v w) (hholds : Alike k holds holds') :
    InStep k k' (Alike k) (x.comparisonMore (n + 1) v holds)
      (y.comparisonMore (n + 1) w holds') := by
  rw [Evaluator.comparisonMore, Evaluator.comparisonMore]
  refine (hxy.eatAmong Symbol.comparison?).bind ?_
  rintro op _ rfl
  split
  · refine (h.level .sum k k' hk).bind fun v' w' hv' => ?_
    exact h.links k k' v' w' _ _ hk hv' fun h0 => by rw [hv h0, hv' h0, hholds h0]
  · exact inStep_pure fun h0 => by rw [hv h0, hholds h0]

theorem level_sign (h : Paired x y n) (hxy : Widened x y) (hk : k = 0 ↔ k' = 0) :
    InStep k k' (Alike k) (x.sign (n + 1)) (y.sign (n + 1)) := by
  rw [Evaluator.sign, Evaluator.sign]
  refine (hxy.eat (.arithmetic .subtract)).bind ?_
  rintro b _ rfl
  split
  · refine (h.level .sign k k' hk).bind fun v w hv => inStep_settle hk fun h0 => ?_
    rw [hv h0]
    exact .refl _
  refine (hxy.eat (.arithmetic .add)).bind ?_
  rintro b _ rfl
  split
  · exact h.level .sign k k' hk
  · exact h.level .primary k k' hk

theorem level_primary (h : Paired x y n) (hxy : Widened x y) (hk : k = 0 ↔ k' = 0) :
    InStep k k' (Alike k) (x.primary (n + 1)) (y.primary (n + 1)) := by
  have hadvance : InStep k k' Eq Evaluator.advance Evaluator.advance := fun _ => .value rfl
  rw [Evaluator.primary, Evaluator.primary]
  refine hxy.peek.bind ?_
  rintro t _ rfl
  rcases t with _ | t
  · exact inStep_throw _
  refine hadvance.bind fun _ _ _ => ?_
  cases t with
  | int n => exact inStep_pure fun _ => rfl
  | float z => exact inStep_pure fun _ => rfl
  | word name => exact hxy.word hk name
  | symbol s => exact inStep_throw _
  | closing => exact inStep_throw _
  | opening =>
    refine (h.level .either k k' hk).bind fun v w hv => hxy.peek.bind ?_
    rintro t _ rfl
    split
    · exact hadvance.bind fun _ _ _ => inStep_pure hv
    · exact inStep_throw _

end Paired

theorem paired (hxy : Widened x y) (n : Nat) : Paired x y n := by
  induction n with
  | zero =>
    refine ⟨fun l k k' hk => ?_, fun l k k' v w hk hv => ?_, fun k k' v w _ _ hk hv hholds => ?_⟩
    · cases l <;> exact inStep_throw _
    · cases l <;> exact inStep_pure hv
    · exact inStep_pure fun h0 => by rw [hv h0, hholds h0]
  | succ n h =>
    refine ⟨fun l k k' hk => ?_, fun l k k' v w hk hv => ?_,
      fun k k' v w _ _ hk => h.links_succ hxy hk⟩
    · cases l with
      | either | both | sum | term => exact h.level_joining hk rfl
      | negation => exact h.level_negation hxy hk
      | comparison => exact h.level_comparison hk
      | sign => exact h.level_sign hxy hk
      | primary => exact h.level_primary hxy hk
    · cases l with
      | either =>
        rw [Evaluator.more, Evaluator.more, Evaluator.eitherMore_succ, Evaluator.eitherMore_succ]
        exact h.more_connective hxy hk hv .either .either true
      | both =>
        rw [Evaluator.more, Evaluator.more, Evaluator.bothMore_succ, Evaluator.bothMore_succ]
        exact h.more_connective hxy hk hv .both .both false
      | sum => exact h.more_arithmetic hxy hk hv .sum Symbol.additive?
      | term => exact h.more_arithmetic hxy hk hv .term Symbol.multiplicative?
      | negation | comparison | sign | primary => exact inStep_pure hv

theorem evaluate_agrees (h : locals ⊆ more) (condition : String) :
    AgreesUnless Fault.IsUndefinedName (evaluate condition locals) (evaluate condition more) := by
  refine (AgreesUnless.refl (tokenize condition)).bind fun ts => ?_
  split
  · exact .refl _
  have h : Abreast 0 0 (Alike 0)
      ((Evaluator.either ⟨ts, locals⟩ (9 * ts.length + 9)).run.run {})
      ((Evaluator.either ⟨ts, more⟩ (9 * ts.length + 9)).run.run {}) :=
    (paired (x := ⟨ts, locals⟩) (y := ⟨ts, more⟩) ⟨rfl, h⟩ (9 * ts.length + 9)).level
      .either 0 0 .rfl 0
  generalize (Evaluator.either ⟨ts, locals⟩ (9 * ts.length + 9)).run.run {} = o at h ⊢
  generalize (Evaluator.either ⟨ts, more⟩ (9 * ts.length + 9)).run.run {} = o' at h ⊢
  cases h with
  | value hvalue =>
    obtain rfl := hvalue rfl
    exact .refl _
  | fault => exact .refl _
  | undefined => exact .error ⟨_, rfl⟩ _

end Condition

/-- A condition names a variable that is not defined. -/
def Error.IsUndefinedName (e : Error) : Prop :=
  ∃ condition name, e = .condition condition (.undefined name)

theorem Condition.holds_agrees (h : locals ⊆ more) (condition : String) :
    AgreesUnless Error.IsUndefinedName (holds condition locals) (holds condition more) := by
  refine ((evaluate_agrees h condition).mapError ?_).map Value.truthy
  rintro fault ⟨name, rfl⟩
  exact ⟨condition, name, rfl⟩

namespace Feature

theorem addStage_agrees (h : locals ⊆ more) (texts : List String) (t : Transform) :
    AgreesUnless Error.IsUndefinedName (addStage locals texts t) (addStage more texts t) := by
  rw [addStage, addStage]
  cases t.condition with
  | none => exact .refl _
  | some condition => exact (Condition.holds_agrees h condition).bind fun _ => .refl _

theorem foldlM_agrees (h : locals ⊆ more) (ts : List Transform) (texts : List String) :
    AgreesUnless Error.IsUndefinedName (ts.foldlM (addStage locals) texts)
      (ts.foldlM (addStage more) texts) := by
  induction ts generalizing texts with
  | nil =>
    rw [List.foldlM_nil, List.foldlM_nil]
    exact .refl _
  | cons t ts ih =>
    rw [List.foldlM_cons, List.foldlM_cons]
    exact (addStage_agrees h texts t).bind fun _ => ih _

theorem compile_agrees (h : locals ⊆ more) (f : Feature) :
    AgreesUnless Error.IsUndefinedName (f.compile locals) (f.compile more) :=
  (foldlM_agrees h f.stages []).bind fun _ => .refl _

/-- Where more variables are defined, a feature that has a pipeline has the same one, and one that
has none fails as before unless a variable was not defined. -/
theorem compile_of_subset (h : locals ⊆ more) (f : Feature) :
    (∀ pipeline, f.compile locals = .ok pipeline → f.compile more = .ok pipeline) ∧
      ∀ e, f.compile locals = .error e → ¬e.IsUndefinedName → f.compile more = .error e :=
  ⟨fun _ => (compile_agrees h f).eq_ok, fun _ => (compile_agrees h f).eq_error⟩

end Feature

/-! ## A variable that an operand passed over names -/

namespace Gained

def mono : Condition.Locals := ⟨[("channels", .int 1)], by decide⟩

/-- With these the right operands have values, and a quotient among them has none. -/
def gained : Condition.Locals := ⟨[("channels", .int 1), ("gain", .int 0)], by decide⟩

def top : Feature := ⟨"Top", [{ name := "Level", condition := some "channels == 1 or 1 // gain" },
  { name := "Peak", condition := some "channels > 1 and gain == 0" }]⟩

/-- The quotient fails before the name is asked for. -/
def broken : Feature := ⟨"Top", [{ name := "Level", condition := some "channels // 0 + gain" }]⟩

end Gained

theorem Feature.compile_of_subset_gained :
    Gained.mono ⊆ Gained.gained ∧ Gained.top.compile Gained.mono = .ok "Top [Level]" ∧
      Gained.top.compile Gained.gained = .ok "Top [Level]" ∧
      Gained.broken.compile Gained.gained =
        .error (.condition "channels // 0 + gain" .divisionByZero) := by
  have hsubset : Gained.mono ⊆ Gained.gained :=
    Dict.subset_iff.2 (List.cons_subset_cons _ (List.nil_subset _))
  have htop : Gained.top.compile Gained.mono = .ok "Top [Level]" := by cbv
  have hbroken : Gained.broken.compile Gained.mono =
      .error (.condition "channels // 0 + gain" .divisionByZero) := by cbv
  refine ⟨hsubset, htop, (compile_of_subset hsubset _).1 _ htop, ?_⟩
  refine (compile_of_subset hsubset _).2 _ hbroken ?_
  rintro ⟨condition, name, h⟩
  cases h

end AudioFeatures
