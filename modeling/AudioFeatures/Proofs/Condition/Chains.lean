import AudioFeatures.Proofs.Condition.Laziness

/-! # Chains of comparisons

A chain of two comparisons against the conjunction of both. The chain evaluates its three operands
before it compares, and the conjunction passes over its second part where the first does not hold.
So they part where only the last operand has no value and it does not matter for the conjunction.
-/

namespace AudioFeatures.Condition

variable {locals : Locals} {op₁ op₂ : Comparison} {a b c : Expr} {as bs cs : List Token}

/-- The chain of two comparisons. -/
def Expr.chained (op₁ op₂ : Comparison) (a b c : Expr) : Expr :=
  .chain a (.cons op₁ b (.cons op₂ c .nil))

/-- The conjunction of two comparisons, with the middle operand in both. -/
def Expr.conjoined (op₁ op₂ : Comparison) (a b c : Expr) : Expr :=
  .both (.chain a (.cons op₁ b .nil)) (.chain b (.cons op₂ c .nil))

theorem Derives.chained (ha : Derives .sum as a) (hb : Derives .sum bs b)
    (hc : Derives .sum cs c) :
    Derives .either (as ++ .symbol (.comparison op₁) :: (bs ++ .symbol (.comparison op₂) :: cs))
      (.chained op₁ op₂ a b c) := by
  have hlinks : DerivesLinks (.symbol (.comparison op₁) ::
      (bs ++ .symbol (.comparison op₂) :: (cs ++ []))) (.cons op₁ b (.cons op₂ c .nil)) :=
    .cons hb (.cons hc .nil)
  rw [List.append_nil] at hlinks
  exact (Derives.chain ha hlinks nofun).loosen (by decide)

theorem Derives.compared {op : Comparison} (ha : Derives .sum as a) (hb : Derives .sum bs b) :
    Derives .comparison (as ++ .symbol (.comparison op) :: bs) (.chain a (.cons op b .nil)) := by
  have hlinks : DerivesLinks (.symbol (.comparison op) :: (bs ++ [])) (.cons op b .nil) :=
    .cons hb .nil
  rw [List.append_nil] at hlinks
  exact .chain ha hlinks nofun

theorem Joins.conjunction {t : Token} (ht : t ∈ [Token.word "and", .symbol .both]) :
    Joins .both t .both := by
  simp only [List.mem_cons, List.not_mem_nil, or_false] at ht
  rcases ht with rfl | rfl
  · exact .and_word
  · exact .and_symbol

theorem Derives.conjoined {t : Token} (ht : t ∈ [Token.word "and", .symbol .both])
    (ha : Derives .sum as a) (hb : Derives .sum bs b) (hc : Derives .sum cs c) :
    Derives .either ((as ++ .symbol (.comparison op₁) :: bs) ++
      t :: (bs ++ .symbol (.comparison op₂) :: cs)) (.conjoined op₁ op₂ a b c) := by
  have hleft : Derives .both (as ++ .symbol (.comparison op₁) :: bs)
      (.chain a (.cons op₁ b .nil)) := (ha.compared hb).loosen (by decide)
  have hright : Derives .negation (bs ++ .symbol (.comparison op₂) :: cs)
      (.chain b (.cons op₂ c .nil)) := (hb.compared hc).loosen (by decide)
  exact (Derives.join (Joins.conjunction ht) hleft hright).loosen (by decide)

/-- The first comparison does not hold, and the last operand has no value. -/
def CutShort (locals : Locals) (op : Comparison) (a b c : Expr) : Prop :=
  ∃ x y fault, a.eval locals = .ok x ∧ b.eval locals = .ok y ∧ op.holds x y = false ∧
    c.eval locals = .error fault

theorem eval_compared {op : Comparison} {x : Value} (ha : a.eval locals = .ok x) :
    (Expr.chain a (.cons op b .nil)).eval locals =
      b.eval locals >>= fun y => .ok (.bool (op.holds x y)) := by
  rw [Expr.eval, ha, ok_bind, Links.eval]
  cases b.eval locals with
  | error fault => rfl
  | ok y => simp only [ok_bind, Links.eval, Bool.and_true, pure, Except.pure]

theorem eval_chained {x y : Value} (ha : a.eval locals = .ok x) (hb : b.eval locals = .ok y) :
    (Expr.chained op₁ op₂ a b c).eval locals =
      c.eval locals >>= fun z => .ok (.bool (op₁.holds x y && op₂.holds y z)) := by
  rw [Expr.chained, Expr.eval, ha, ok_bind, Links.eval, hb, ok_bind, Links.eval]
  cases c.eval locals with
  | error fault => rfl
  | ok z => simp only [ok_bind, Links.eval, Bool.and_true, pure, Except.pure]

/-- Where the first comparison holds, the conjunction evaluates the last operand. -/
theorem eval_conjoined_of_holds {x y : Value} (ha : a.eval locals = .ok x)
    (hb : b.eval locals = .ok y) (hop : op₁.holds x y = true) :
    (Expr.conjoined op₁ op₂ a b c).eval locals =
      c.eval locals >>= fun z => .ok (.bool (op₂.holds y z)) := by
  rw [Expr.conjoined, Expr.eval, eval_compared ha, hb, ok_bind, ok_bind, hop,
    if_pos (by rfl), eval_compared hb]
  cases c.eval locals <;> rfl

/-- Where it does not hold, the conjunction passes over the last operand. -/
theorem eval_conjoined_of_not_holds {x y : Value} (ha : a.eval locals = .ok x)
    (hb : b.eval locals = .ok y) (hop : op₁.holds x y = false) (hbf : b.fault? = none)
    (hcf : c.fault? = none) : (Expr.conjoined op₁ op₂ a b c).eval locals = .ok (.bool false) := by
  rw [Expr.conjoined, Expr.eval, eval_compared ha, hb, ok_bind, ok_bind, hop,
    if_neg (by simp [Value.truthy]), skip_eq_ok_iff]
  simp [Expr.fault?, Links.fault?, hbf, hcf]

theorem eval_chained_eq (hbf : b.fault? = none) (hcf : c.fault? = none)
    (h : ¬CutShort locals op₁ a b c) :
    (Expr.chained op₁ op₂ a b c).eval locals = (Expr.conjoined op₁ op₂ a b c).eval locals := by
  cases ha : a.eval locals with
  | error fault =>
    rw [Expr.chained, Expr.conjoined, Expr.eval, Expr.eval, Expr.eval, ha]
    rfl
  | ok x =>
    cases hb : b.eval locals with
    | error fault =>
      rw [Expr.chained, Expr.conjoined, Expr.eval, Expr.eval, eval_compared ha, ha, ok_bind,
        Links.eval, hb]
      rfl
    | ok y =>
      rw [eval_chained ha hb]
      cases hop : op₁.holds x y with
      | true => simp only [eval_conjoined_of_holds ha hb hop, Bool.true_and]
      | false =>
        rw [eval_conjoined_of_not_holds ha hb hop hbf hcf]
        cases hc : c.eval locals with
        | error fault => exact absurd ⟨x, y, fault, ha, hb, hop, hc⟩ h
        | ok z => rfl

theorem CutShort.eval (hbf : b.fault? = none) (hcf : c.fault? = none)
    (h : CutShort locals op₁ a b c) : ∃ fault, c.eval locals = .error fault ∧
      (Expr.chained op₁ op₂ a b c).eval locals = .error fault ∧
      (Expr.conjoined op₁ op₂ a b c).eval locals = .ok (.bool false) := by
  obtain ⟨x, y, fault, ha, hb, hop, hc⟩ := h
  refine ⟨fault, hc, ?_, eval_conjoined_of_not_holds ha hb hop hbf hcf⟩
  rw [eval_chained ha hb, hc]
  rfl

theorem exists_bool_of_eval_chain {ls : Links} {v : Value}
    (h : (Expr.chain a ls).eval locals = .ok v) : ∃ r, v = .bool r := by
  obtain ⟨x, -, h⟩ := bind_eq_ok_iff.1 h
  obtain ⟨r, -, h⟩ := bind_eq_ok_iff.1 h
  cases h
  exact ⟨r, rfl⟩

/-- A chain of two comparisons has the value or the fault of their conjunction, unless the first
comparison does not hold and the last operand has no value. Then the chain fails as the operand does
and the conjunction is false. -/
theorem evaluate_chain {chain conjunction : String} {link : Token}
    (ha : Derives .sum as a) (hb : Derives .sum bs b) (hc : Derives .sum cs c)
    (hlink : link ∈ [Token.word "and", .symbol .both])
    (hchain : tokenize chain = .ok (as ++ .symbol (.comparison op₁) ::
      (bs ++ .symbol (.comparison op₂) :: cs)))
    (hconjunction : tokenize conjunction = .ok ((as ++ .symbol (.comparison op₁) :: bs) ++
      link :: (bs ++ .symbol (.comparison op₂) :: cs)))
    (locals : Locals) :
    (¬CutShort locals op₁ a b c →
      evaluate chain locals = evaluate conjunction locals ∧
        ∀ v, evaluate chain locals = .ok v → ∃ r, v = .bool r) ∧
    (CutShort locals op₁ a b c → ∃ fault, c.eval locals = .error fault ∧
      evaluate chain locals = .error fault ∧
        evaluate conjunction locals = .ok (.bool false)) := by
  rw [evaluate_of_derives hchain (ha.chained hb hc),
    evaluate_of_derives hconjunction (ha.conjoined hlink hb hc)]
  exact ⟨fun h => ⟨eval_chained_eq hb.fault? hc.fault? h, fun v => exists_bool_of_eval_chain⟩,
    fun h => h.eval hb.fault? hc.fault?⟩

theorem derives_int (n : Int64) : Derives .sum [.int n] (.constant (.int n)) :=
  (Derives.int n).loosen (by decide)

theorem derives_variable {name : String} (h : name ∉ reserved) :
    Derives .sum [.word name] (.variable name) :=
  (Derives.variable h).loosen (by decide)

def loud : Locals := ⟨[("gain", .int 5)], by decide⟩

/-- The last operand has no value here, and the conjunction needs it too. -/
theorem evaluate_chain_needed :
    tokenize "1 < gain<1 // 0" = .ok [.int 1, .symbol (.comparison .less), .word "gain",
      .symbol (.comparison .less), .int 1, .symbol (.arithmetic .floorDivide), .int 0] ∧
    tokenize "1 < gain && gain < 1//0" = .ok [.int 1, .symbol (.comparison .less), .word "gain",
      .symbol .both, .word "gain", .symbol (.comparison .less), .int 1,
      .symbol (.arithmetic .floorDivide), .int 0] ∧
    evaluate "1 < gain<1 // 0" loud = evaluate "1 < gain && gain < 1//0" loud := by
  have hchain : tokenize "1 < gain<1 // 0" = .ok [.int 1, .symbol (.comparison .less),
      .word "gain", .symbol (.comparison .less), .int 1, .symbol (.arithmetic .floorDivide),
      .int 0] := by cbv
  have hconjunction : tokenize "1 < gain && gain < 1//0" = .ok [.int 1,
      .symbol (.comparison .less), .word "gain", .symbol .both, .word "gain",
      .symbol (.comparison .less), .int 1, .symbol (.arithmetic .floorDivide), .int 0] := by cbv
  have hgain : Derives .sum [.word "gain"] (.variable "gain") := derives_variable (by decide)
  have hquotient : Derives .sum [.int 1, .symbol (.arithmetic .floorDivide), .int 0]
      (.arithmetic .floorDivide (.constant (.int 1)) (.constant (.int 0))) :=
    (Derives.join .floorDivide ((Derives.int 1).loosen (by decide))
      ((Derives.int 0).loosen (by decide))).loosen (by decide)
  refine ⟨hchain, hconjunction, ((evaluate_chain (derives_int 1) hgain hquotient (by simp)
    hchain hconjunction loud).1 ?_).1⟩
  rintro ⟨x, y, fault, ⟨⟩, ⟨⟩, hless, -⟩
  exact absurd hless (by decide)

/-- The last operand has no value here, and the conjunction passes it over. -/
theorem evaluate_chain_ne :
    Derives .sum [.int 2] (.constant (.int 2)) ∧ Derives .sum [.int 1] (.constant (.int 1)) ∧
    Derives .sum [.word "x"] (.variable "x") ∧
    tokenize "2 < 1 < x" = .ok [.int 2, .symbol (.comparison .less), .int 1,
      .symbol (.comparison .less), .word "x"] ∧
    tokenize "2 < 1 and 1 < x" = .ok [.int 2, .symbol (.comparison .less), .int 1, .word "and",
      .int 1, .symbol (.comparison .less), .word "x"] ∧
    evaluate "2 < 1 < x" ∅ = .error (.undefined "x") ∧
    evaluate "2 < 1 and 1 < x" ∅ = .ok (.bool false) :=
  ⟨derives_int 2, derives_int 1, derives_variable (by decide), by cbv, by cbv, by cbv, by cbv⟩

end AudioFeatures.Condition
