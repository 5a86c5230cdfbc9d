import AudioFeatures.Proofs.Condition.Formula
import AudioFeatures.Proofs.Condition.Laziness
import AudioFeatures.Proofs.Condition.Lexer

/-! # Texts of integer formulas

The conditions that spell a formula: numerals and names, with signs, parentheses and operators in
the order of their levels, and blanks between them. The tokens of such a text make up the formula,
so the text is evaluated as the formula is.
-/

namespace AudioFeatures.Condition

open Text Lexer

variable {l : Level} {s u : List Char} {op : Operation} {locals : Locals} {env : String → Int}

namespace Operation

def level : Operation → Level
  | add | subtract => .sum
  | multiply | floorDivide | modulo => .term

def spelling : Operation → List Char
  | add => ['+']
  | subtract => ['-']
  | multiply => ['*']
  | floorDivide => ['/', '/']
  | modulo => ['%']

theorem joins (op : Operation) :
    Joins op.level (.symbol (.arithmetic op.arithmetic)) (.arithmetic op.arithmetic) := by
  cases op <;> constructor

end Operation

/-- The text is a formula of the level. -/
inductive Spells : Level → List Char → Formula → Prop
  | literal {s : List Char} : IsNumeral s → Spells .primary s (.literal (natOfDigits s))
  | named {s : List Char} : IsName s → String.ofList s ∉ reserved →
      Spells .primary s (.named (String.ofList s))
  | parentheses {s : List Char} {a} : Spells .sum s a → Spells .primary ('(' :: (s ++ [')'])) a
  | plus {s : List Char} {a} : Spells .sign s a → Spells .sign ('+' :: s) (.plus a)
  | minus {s : List Char} {a} : Spells .sign s a → Spells .sign ('-' :: s) (.minus a)
  | binary {op : Operation} {s u : List Char} {a b} : Spells op.level s a →
      Spells op.level.next u b → Spells op.level (s ++ (op.spelling ++ u)) (.binary op a b)
  | blank_before {l : Level} {c : Char} {s : List Char} {a} : isAsciiBlank c = true →
      Spells l s a → Spells l (c :: s) a
  | blank_after {l : Level} {c : Char} {s : List Char} {a} : isAsciiBlank c = true →
      Spells l s a → Spells l (s ++ [c]) a
  | tighter {l : Level} {s : List Char} {a} : l ≠ .primary → Spells l.next s a → Spells l s a

theorem Spells.loosen {k : Level} {a : Formula} (h : Spells k s a) (hkl : l.rank ≤ k.rank) :
    Spells l s a :=
  Level.loosen (p := fun j => Spells j s a) (fun _ => .tighter) h hkl

/-- The tokens of the text make up the formula, unless one of its literals is refused. -/
def ReadAs (l : Level) (s : List Char) (a : Formula) : Prop :=
  (a.LiteralsFit ∧ ∃ ts, Yields Ends s (.ok ts) ∧ Derives l ts a.expr) ∨
    (¬a.LiteralsFit ∧ ∃ w, Yields Ends s (.error (.badNumber w)))

variable {a b : Formula}

theorem yields_spelling (op : Operation) :
    Yields Anything op.spelling (.ok [.symbol (.arithmetic op.arithmetic)]) := by
  cases op <;> exact yields_token rfl fun _ _ _ => rfl

theorem ends_spelling (op : Operation) : Ends (op.spelling ++ s) := by
  cases op <;> exact ends_cons (by decide) (by decide)

/-- What stands around a formula does not change how it is read. -/
theorem ReadAs.around {k : Level} {p q : List Char} {ps qs : List Token} (h : ReadAs k s a)
    (hp : Yields Anything p (.ok ps)) (hq : Yields Ends q (.ok qs))
    (hends : ∀ rest, Ends rest → Ends (q ++ rest)) (hfit : b.LiteralsFit ↔ a.LiteralsFit)
    (hderives : ∀ ts, Derives k ts a.expr → Derives l (ps ++ (ts ++ qs)) b.expr) :
    ReadAs l (p ++ (s ++ q)) b := by
  rcases h with ⟨hlit, ts, hs, hd⟩ | ⟨hlit, w, hs⟩
  · refine .inl ⟨hfit.2 hlit, _, ?_, hderives ts hd⟩
    exact hp.append (hs.append hq hends) fun _ _ => trivial
  · refine .inr ⟨fun h => hlit (hfit.1 h), w, ?_⟩
    exact hp.append (hs.append hq hends) fun _ _ => trivial

theorem ReadAs.binary (h : ReadAs op.level s a) (h' : ReadAs op.level.next u b) :
    ReadAs op.level (s ++ (op.spelling ++ u)) (.binary op a b) := by
  have hop (y) (hu : Yields Ends u y) :
      Yields Ends (op.spelling ++ u) (y.map (.symbol (.arithmetic op.arithmetic) :: ·)) :=
    (yields_spelling op).append hu fun _ _ => trivial
  have hends (rest) (_ : Ends rest) : Ends (op.spelling ++ u ++ rest) := by
    rw [List.append_assoc]
    exact ends_spelling op
  rcases h with ⟨hlit, ts, hs, hd⟩ | ⟨hlit, w, hs⟩
  · rcases h' with ⟨hlit', us, hu, hd'⟩ | ⟨hlit', w, hu⟩
    · exact .inl ⟨⟨hlit, hlit'⟩, _, hs.append (hop _ hu) hends, .join op.joins hd hd'⟩
    · exact .inr ⟨fun h => hlit' h.2, w, hs.append (hop _ hu) hends⟩
  · refine .inr ⟨fun h => hlit h.1, w, ?_⟩
    -- the literal is refused whether or not there is one more in the right operand
    rcases h' with ⟨-, us, hu, -⟩ | ⟨-, w, hu⟩ <;> exact hs.append (hop _ hu) hends

theorem readAs_literal (h : IsNumeral s) : ReadAs .primary s (.literal (natOfDigits s)) := by
  have hy := yields_numeral h
  have hiff : IsWord (natOfDigits s) ↔ natOfDigits s < 2 ^ 63 := by
    unfold IsWord
    omega
  split at hy
  case isTrue h => exact .inl ⟨hiff.2 h, _, hy, .int _⟩
  case isFalse h => exact .inr ⟨fun hw => h (hiff.1 hw), _, hy⟩

theorem Spells.readAs (h : Spells l s a) : ReadAs l s a := by
  have hnil : ∀ rest, Ends rest → Ends ([] ++ rest) := fun _ hrest => hrest
  induction h with
  | literal h => exact readAs_literal h
  | named hname hres => exact .inl ⟨trivial, _, yields_name hname, .variable hres⟩
  | parentheses _ ih =>
    refine ih.around (p := ['(']) (q := [')']) (yields_token rfl fun _ _ _ => rfl)
      (yields_token rfl fun _ _ _ => rfl) (fun _ _ => ends_cons (by decide) (by decide)) .rfl ?_
    exact fun ts hd => .parentheses (hd.loosen (by decide))
  | plus _ ih =>
    rw [← List.append_nil (_ :: _)]
    refine ih.around (p := ['+']) (q := []) (yields_token rfl fun _ _ _ => rfl) yields_nil hnil
      .rfl fun ts hd => ?_
    rw [List.append_nil]
    exact .plus hd
  | minus _ ih =>
    rw [← List.append_nil (_ :: _)]
    refine ih.around (p := ['-']) (q := []) (yields_token rfl fun _ _ _ => rfl) yields_nil hnil
      .rfl fun ts hd => ?_
    rw [List.append_nil]
    exact .minus hd
  | binary _ _ ih ih' => exact ih.binary ih'
  | @blank_before l c s a hc _ ih =>
    rw [← List.append_nil (_ :: _)]
    refine ih.around (p := [c]) (q := []) (yields_blank hc) yields_nil hnil .rfl fun ts hd => ?_
    rwa [List.append_nil]
  | @blank_after l c s a hc _ ih =>
    refine ih.around (p := []) (q := [c]) yields_nil (yields_blank hc)
      (fun _ _ => ends_cons_of_isAsciiBlank hc) .rfl fun ts hd => ?_
    rwa [List.append_nil]
  | tighter hl _ ih =>
    rcases ih with ⟨hlit, ts, hs, hd⟩ | h
    · exact .inl ⟨hlit, ts, hs, .tighter hl hd⟩
    · exact .inr h

/-- A formula has its exact value or none. It has one where the exact values of its parts are words
and no divisor is zero, unless a part is the remainder of the least word by minus one. No single
step of the calculation halts. -/
theorem evaluate_formula {condition : String} (h : Spells .sum condition.toList a)
    (hb : a.Bound locals env) :
    ((∃ v, evaluate condition locals = .ok v) ↔ a.Exact env ∧ a.SparesLeast env) ∧
      (∀ v, evaluate condition locals = .ok v → v.Denotes (a.value env)) ∧
      (a.run locals = (evaluate condition locals).mapError .fault ∨
        ∃ w, evaluate condition locals = .error (.badNumber w)) := by
  rcases h.readAs with ⟨hfit, ts, hs, hd⟩ | ⟨hfit, w, hs⟩
  · have htokens : tokenize condition = .ok ts :=
      (tokenize_eq condition).trans (hs.tokens_eq ends_nil 0)
    rw [evaluate_of_derives htokens (hd.loosen (by decide))]
    exact ⟨a.exists_eval_iff hfit hb, fun v => a.denotes_of_eval hfit hb, .inl (a.run_eq locals)⟩
  · have htokens : tokenize condition = .error (.badNumber w) :=
      (tokenize_eq condition).trans (hs.tokens_eq ends_nil 0)
    have herror : evaluate condition locals = .error (.badNumber w) := by
      rw [evaluate, htokens]
      rfl
    rw [herror]
    refine ⟨⟨?_, fun he => absurd he.1.literalsFit hfit⟩, ?_, .inr ⟨w, rfl⟩⟩
    · rintro ⟨v, hv⟩
      cases hv
    · intro v hv
      cases hv

/-- The formula `-(n + 5) // 3`. -/
def third : Formula :=
  .binary .floorDivide (.minus (.binary .add (.named "n") (.literal 5))) (.literal 3)

theorem spells_third : Spells .sum "-(n + 5) // 3".toList third := by
  have hn : Spells .primary ['n'] (.named "n") := .named (by decide) (by decide)
  have hfive : Spells .primary ['5'] (.literal 5) := .literal (by decide)
  have hthree : Spells .primary ['3'] (.literal 3) := .literal (by decide)
  have hsum : Spells Operation.add.level ['n', ' ', '+', ' ', '5']
      (.binary .add (.named "n") (.literal 5)) :=
    .binary (.blank_after rfl (hn.loosen (by decide)))
      (.blank_before rfl (hfive.loosen (by decide)))
  have hminus := Spells.minus (hsum.parentheses.loosen (by decide))
  have h : Spells Operation.floorDivide.level "-(n + 5) // 3".toList third :=
    .binary (.blank_after rfl (hminus.loosen (by decide)))
      (.blank_before (c := ' ') rfl (hthree.loosen (by decide)))
  exact h.loosen (by decide)

/-- A negative dividend is rounded towards minus infinity. -/
theorem evaluate_formula_third :
    Spells .sum "-(n + 5) // 3".toList third ∧
    third.Bound ⟨[("n", .int 2)], by decide⟩ (fun _ => 2) ∧
    third.Exact (fun _ => 2) ∧ third.SparesLeast (fun _ => 2) ∧ third.value (fun _ => 2) = -3 ∧
    ∃ v, evaluate "-(n + 5) // 3" ⟨[("n", .int 2)], by decide⟩ = .ok v ∧ v.Denotes (-3) := by
  have hbound : third.Bound ⟨[("n", .int 2)], by decide⟩ (fun _ => 2) :=
    ⟨⟨⟨.int 2, rfl, 2, rfl, rfl⟩, trivial⟩, trivial⟩
  have hexact : third.Exact (fun _ => 2) := by decide +kernel
  have hspares : third.SparesLeast (fun _ => 2) := by decide +kernel
  have hvalue : third.value (fun _ => 2) = -3 := by decide +kernel
  obtain ⟨hiff, hdenotes, -⟩ := evaluate_formula spells_third hbound
  obtain ⟨v, hv⟩ := hiff.2 ⟨hexact, hspares⟩
  exact ⟨spells_third, hbound, hexact, hspares, hvalue, v, hv, hvalue ▸ hdenotes v hv⟩

/-- The formula `(-9223372036854775807 - 1) % -1`. -/
def leastRemainder : Formula :=
  .binary .modulo (.binary .subtract (.minus (.literal 9223372036854775807)) (.literal 1))
    (.minus (.literal 1))

theorem spells_leastRemainder :
    Spells .sum "(-9223372036854775807 - 1) % -1".toList leastRemainder := by
  have hone : Spells .primary ['1'] (.literal 1) := .literal (by decide)
  have hgreatest : Spells .primary "9223372036854775807".toList (.literal 9223372036854775807) :=
    .literal (by decide)
  have hminus := Spells.minus (hgreatest.loosen (by decide))
  have hleast : Spells Operation.subtract.level "-9223372036854775807 - 1".toList
      (.binary .subtract (.minus (.literal 9223372036854775807)) (.literal 1)) :=
    .binary (.blank_after rfl (hminus.loosen (by decide)))
      (.blank_before (c := ' ') rfl (hone.loosen (by decide)))
  have h : Spells Operation.modulo.level "(-9223372036854775807 - 1) % -1".toList leastRemainder :=
    .binary (.blank_after rfl (hleast.parentheses.loosen (by decide)))
      (.blank_before (c := ' ') rfl (.minus (hone.loosen (by decide))))
  exact h.loosen (by decide)

/-- The remainder of the least word by minus one is zero, and there is no value. -/
theorem evaluate_formula_least :
    Spells .sum "(-9223372036854775807 - 1) % -1".toList leastRemainder ∧
    leastRemainder.Exact (fun _ => 0) ∧ leastRemainder.value (fun _ => 0) = 0 ∧
    evaluate "(-9223372036854775807 - 1) % -1" ∅ = .error .overflow :=
  ⟨spells_leastRemainder, by decide +kernel, by decide +kernel, by cbv⟩

end AudioFeatures.Condition
