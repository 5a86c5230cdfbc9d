import Mathlib
import AudioFeatures.Proofs.Condition.Expr

/-! # The grammar of conditions

Which tokens make up an expression of which level, rule by rule. Binary operators group to the
left; a chain of comparisons is one expression. The reader finds exactly the expressions that the
rules derive, so every sequence of tokens has at most one syntax tree.
-/

namespace AudioFeatures.Condition

/-- The words that are no variables. -/
def reserved : List String := ["or", "and", "not", "True", "true", "False", "false"]

/-- The operators between two operands, by level. -/
inductive Joins : Level → Token → (Expr → Expr → Expr) → Prop
  | or_word : Joins .either (.word "or") .either
  | or_symbol : Joins .either (.symbol .either) .either
  | and_word : Joins .both (.word "and") .both
  | and_symbol : Joins .both (.symbol .both) .both
  | add : Joins .sum (.symbol (.arithmetic .add)) (.arithmetic .add)
  | subtract : Joins .sum (.symbol (.arithmetic .subtract)) (.arithmetic .subtract)
  | multiply : Joins .term (.symbol (.arithmetic .multiply)) (.arithmetic .multiply)
  | divide : Joins .term (.symbol (.arithmetic .divide)) (.arithmetic .divide)
  | floorDivide : Joins .term (.symbol (.arithmetic .floorDivide)) (.arithmetic .floorDivide)
  | modulo : Joins .term (.symbol (.arithmetic .modulo)) (.arithmetic .modulo)

mutual

/-- The tokens are an expression of the level. -/
inductive Derives : Level → List Token → Expr → Prop
  | join {l t f s u a b} : Joins l t f → Derives l s a → Derives l.next u b →
      Derives l (s ++ t :: u) (f a b)
  | negation {t s a} : t ∈ [Token.word "not", .symbol .negation] → Derives .negation s a →
      Derives .negation (t :: s) (.negation a)
  | chain {s u a ls} : Derives .sum s a → DerivesLinks u ls → ls ≠ .nil →
      Derives .comparison (s ++ u) (.chain a ls)
  | minus {s a} : Derives .sign s a →
      Derives .sign (.symbol (.arithmetic .subtract) :: s) (.negate a)
  | plus {s a} : Derives .sign s a → Derives .sign (.symbol (.arithmetic .add) :: s) a
  | int (n : Int64) : Derives .primary [.int n] (.constant (.int n))
  | float (x : Float) : Derives .primary [.float x] (.constant (.float x))
  | truth {name : String} : name ∈ ["True", "true"] →
      Derives .primary [.word name] (.constant (.bool true))
  | falsity {name : String} : name ∈ ["False", "false"] →
      Derives .primary [.word name] (.constant (.bool false))
  | variable {name : String} : name ∉ reserved → Derives .primary [.word name] (.variable name)
  | parentheses {s a} : Derives .either s a → Derives .primary (.opening :: (s ++ [.closing])) a
  /-- An expression that binds tighter. -/
  | tighter {l s a} : l ≠ .primary → Derives l.next s a → Derives l s a

/-- The tokens are comparisons, each with its right operand. -/
inductive DerivesLinks : List Token → Links → Prop
  | nil : DerivesLinks [] .nil
  | cons {op s u a ls} : Derives .sum s a → DerivesLinks u ls →
      DerivesLinks (.symbol (.comparison op) :: (s ++ u)) (.cons op a ls)

end

variable {l : Level} {t : Token} {f : Expr → Expr → Expr} {s u rest : List Token} {a b e : Expr}
  {ls : Links} {n : Nat}

theorem join?_eq_some_iff : l.join? t = some f ↔ Joins l t f := by
  constructor
  · intro h
    unfold Level.join? at h
    split at h <;> first | cases h; constructor | cases h
  · intro h
    cases h <;> rfl

theorem Joins.fault? (h : Joins l t f) : (f a b).fault? = a.fault?.or b.fault? := by
  cases h <;> rfl

mutual

theorem Derives.fault? {l : Level} {s : List Token} {e : Expr} : Derives l s e → e.fault? = none
  | @Derives.join _ _ f _ _ _ _ hj h h' => by rw [hj.fault?, h.fault?, h'.fault?]; rfl
  | .negation _ h | .minus h => by rw [Expr.fault?, h.fault?]
  | .chain h h' _ => by rw [Expr.fault?, h.fault?, h'.fault?]; rfl
  | .plus h | .parentheses h | .tighter _ h => h.fault?
  | .int _ | .float _ | .truth _ | .falsity _ | .variable _ => rfl

theorem DerivesLinks.fault? {s : List Token} {ls : Links} : DerivesLinks s ls → ls.fault? = none
  | .nil => rfl
  | .cons h h' => by rw [Links.fault?, h.fault?, h'.fault?]; rfl

end

namespace Level

def rank : Level → Nat
  | either => 0
  | both => 1
  | negation => 2
  | comparison => 3
  | sum => 4
  | term => 5
  | sign => 6
  | primary => 7

/-- The level has operators between two operands. -/
def joining : Level → Bool
  | either | both | sum | term => true
  | _ => false

theorem rank_next (hl : l ≠ primary) : l.next.rank = l.rank + 1 := by
  cases l <;> first | rfl | exact absurd rfl hl

theorem rank_injective : Function.Injective rank := by
  intro k l h
  cases k <;> cases l <;> first | rfl | cases h

end Level

theorem Level.ne_primary_of_rank_lt {k : Level} (h : l.rank < k.rank) : l ≠ .primary := by
  rintro rfl
  cases k <;> exact absurd h (by decide)

/-- What passes from each level to the next looser one passes to every looser one. -/
theorem Level.loosen {p : Level → Prop} {k : Level} (hp : ∀ j, j ≠ .primary → p j.next → p j)
    (h : p k) (hkl : l.rank ≤ k.rank) : p l := by
  induction hn : k.rank - l.rank generalizing l with
  | zero =>
    obtain rfl : l = k := Level.rank_injective (by omega)
    exact h
  | succ n ih =>
    have hl : l ≠ .primary := Level.ne_primary_of_rank_lt (k := k) (by omega)
    have hnext := Level.rank_next hl
    exact hp l hl (ih (by omega) (by omega))

/-- An expression of a tighter level is one of every looser level. -/
theorem Derives.loosen {k : Level} (h : Derives k s e) (hkl : l.rank ≤ k.rank) :
    Derives l s e :=
  Level.loosen (p := fun j => Derives j s e) (fun _ => .tighter) h hkl

theorem Joins.joining (h : Joins l t f) : l.joining = true := by cases h <;> rfl

theorem Joins.ne_primary (h : Joins l t f) : l ≠ .primary := by cases h <;> simp

/-! ## Where an expression may end -/

/-- The level at which a token continues the expression before it. -/
def Token.continues? : Token → Option Level
  | .word "or" | .symbol .either => some .either
  | .word "and" | .symbol .both => some .both
  | .symbol (.comparison _) => some .comparison
  | .symbol (.arithmetic .add) | .symbol (.arithmetic .subtract) => some .sum
  | .symbol (.arithmetic _) => some .term
  | _ => none

/-- No expression of the level can be continued by the tokens. -/
def EndsAt (l : Level) (ts : List Token) : Prop :=
  ∀ t ∈ ts.head?, ∀ k ∈ t.continues?, k.rank < l.rank

theorem endsAt_nil : EndsAt l [] := nofun

theorem EndsAt.mono {k : Level} (h : EndsAt k rest) (hk : k.rank ≤ l.rank) : EndsAt l rest :=
  fun t ht j hj => Nat.lt_of_lt_of_le (h t ht j hj) hk

theorem endsAt_cons (h : ∀ k ∈ t.continues?, k.rank < l.rank) : EndsAt l (t :: rest) := by
  rintro t' ⟨⟩
  exact h

theorem Joins.continues? (h : Joins l t f) : t.continues? = some l := by cases h <;> rfl

theorem Joins.endsAt (h : Joins l t f) : EndsAt l.next (t :: rest) := by
  refine endsAt_cons fun k hk => ?_
  cases h.continues?.symm.trans hk
  rw [Level.rank_next h.ne_primary]
  exact Nat.lt_succ_self _

theorem Token.isNegation_iff : t.isNegation = true ↔ t ∈ [word "not", .symbol .negation] := by
  constructor
  · intro h
    unfold isNegation at h
    split at h <;> first | cases h; done | simp
  · intro h
    simp only [List.mem_cons, List.not_mem_nil, or_false] at h
    rcases h with rfl | rfl <;> rfl

/-- No expression of the level starts with an operator before an operand. -/
def Token.starts (t : Token) (l : Level) : Prop :=
  (2 < l.rank → t.isNegation = false) ∧ (6 < l.rank → ∀ op, t ≠ .symbol (.arithmetic op))

theorem Token.starts_word {name : String} (hn : name ≠ "not") : (word name).starts l := by
  refine ⟨fun _ => ?_, fun _ _ => by simp⟩
  unfold isNegation
  split <;> simp_all

theorem Derives.starts {l : Level} {s : List Token} {e : Expr} :
    Derives l s e → ∃ t u, s = t :: u ∧ t.starts l
  | @Derives.join _ _ _ _ _ _ _ _ h _ => by
    obtain ⟨t, u, rfl, ht⟩ := h.starts
    exact ⟨t, _, rfl, ht⟩
  | .chain h _ _ => by
    obtain ⟨t, u, rfl, ht, _⟩ := h.starts
    exact ⟨t, _, rfl, fun _ => ht (by decide), fun h => absurd h (by decide)⟩
  | .tighter hl h => by
    obtain ⟨t, u, rfl, ht, ht'⟩ := h.starts
    rw [Level.rank_next hl] at ht ht'
    exact ⟨t, u, rfl, fun h => ht (Nat.lt_succ_of_lt h), fun h => ht' (Nat.lt_succ_of_lt h)⟩
  | .negation _ _ => ⟨_, _, rfl, fun h => absurd h (by decide), fun h => absurd h (by decide)⟩
  | .minus _ | .plus _ => ⟨_, _, rfl, fun _ => rfl, fun h => absurd h (by decide)⟩
  | .int _ | .float _ | .parentheses _ => ⟨_, _, rfl, fun _ => rfl, fun _ _ => by simp⟩
  | .truth hn | .falsity hn => ⟨_, _, rfl, Token.starts_word (by rintro rfl; simp at hn)⟩
  | .variable hn => ⟨_, _, rfl, Token.starts_word (by rintro rfl; simp [reserved] at hn)⟩

end AudioFeatures.Condition
