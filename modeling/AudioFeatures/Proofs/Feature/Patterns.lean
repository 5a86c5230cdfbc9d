import AudioFeatures.Proofs.Feature.Reader
import AudioFeatures.Proofs.Text.Pattern

/-! # The patterns of features

The name and the stages of a feature, and the parts of a stage, are what two patterns capture. The
reader finds what they find.
-/

namespace AudioFeatures

open Text

namespace Pattern

/-! ## Features -/

def nameAndStages : Pattern := sequence [
  .many .blank, .group 1 (.many1 .word), .many .blank, .one (.only '['), .group 2 (.many .any),
  .one (.only ']'), .many .blank, .finish]

/-- A name, and stages between the first bracket and the last. -/
def feature : Pattern := .seq .start nameAndStages

example : feature.source = "^\\s*(\\w+)\\s*\\[(.*)\\]\\s*$" := by decide

variable {m : Match} {s : List Char}

theorem covers_nameAndStages {e : Bool} {t : List Char} {gs : List (Nat × List Char)} (b : Bool) :
    nameAndStages.Covers b e t gs ↔ e = true ∧ ∃ x name y body z,
      t = x ++ (name ++ (y ++ '[' :: (body ++ ']' :: z))) ∧
      (AllBlank x ∧ (IsName name ∧ AllBlank y) ∧ AllBlank z) ∧ gs = [(1, name), (2, body)] := by
  simp only [AllBlank, IsName]
  constructor
  · intro h
    obtain ⟨x, hx, name, y, body, z, ⟨hname, hy, hz, he⟩, ht, hgs⟩ : ∃ x, (∀ c ∈ x, _) ∧ _ := by
      simpa [nameAndStages, sequence, Covers, CharClass.test] using h
    exact ⟨he, x, name, y, body, z, ht, ⟨hx, ⟨hname, hy⟩, hz⟩, hgs⟩
  · rintro ⟨he, x, name, y, body, z, ht, ⟨hx, ⟨hname, hy⟩, hz⟩, hgs⟩
    simpa [nameAndStages, sequence, Covers, CharClass.test] using
      ⟨x, hx, name, y, body, z, ⟨hname, hy, hz, he⟩, ht, hgs⟩

/-- The reader takes the name and the stages from where the pattern captures them. -/
theorem find?_feature (s : List Char) :
    (feature.find? s).map (fun m => (m.group? 1, m.group? 2)) =
      (Feature.Reader.split? s).map fun (name, body) => (some name, some body) := by
  rw [feature, find?_start]
  cases h : nameAndStages.candidates true s with
  | nil =>
    have hsplit : Feature.Reader.split? s = none := by
      refine Option.eq_none_iff_forall_not_mem.2 fun ⟨name, body⟩ hsplit => ?_
      obtain ⟨x, y, z, hs, hx, hname, hz⟩ := Feature.Reader.split?_eq_some_iff.1 hsplit
      have hm : ⟨s, [], [(1, name), (2, body)]⟩ ∈ nameAndStages.candidates true s :=
        mem_candidates_iff.2 ⟨(List.append_nil s).symm,
          (covers_nameAndStages true).2 ⟨rfl, x, name, y, body, z, hs, ⟨hx, hname, hz⟩, rfl⟩⟩
      rw [h] at hm
      cases hm
    rw [hsplit]
    rfl
  | cons m ms =>
    obtain ⟨hs, hm⟩ := mem_candidates_iff.1 (h ▸ List.mem_cons_self : m ∈ _)
    obtain ⟨hrest, x, name, y, body, z, htext, ⟨hx, hname, hz⟩, hgs⟩ :=
      (covers_nameAndStages true).1 hm
    rw [List.isEmpty_iff.1 hrest, List.append_nil, htext] at hs
    rw [Feature.Reader.split?_eq_some_iff.2 ⟨x, y, z, hs, hx, hname, hz⟩]
    rw [List.head?_cons, Option.map_some, Match.group?, Match.group?, hgs]
    rfl

/-! ## Stages -/

def parenthesized : Pattern := sequence [
  .one (.only '('), .group 2 (.many (.except ')')), .one (.only ')')]

def braced : Pattern := sequence [
  .one (.only '\x7b'), .group 3 (.many1 (.except '\x7d')), .one (.only '\x7d')]

def partsOfStage : Pattern := sequence [
  .many .blank, .group 1 (.many1 .word), .many .blank, .optional parenthesized, .many .blank,
  .optional braced, .many .blank]

/-- A name, parameters in parentheses and a condition in braces. -/
def stage : Pattern := .seq .start partsOfStage

example : stage.source =
    "^\\s*(\\w+)\\s*(?:\\(([^)]*)\\))?\\s*(?:\\\x7b([^\x7d]+)\\\x7d)?\\s*" := by decide

section Enclosed

variable (i : Nat) (opening closing : Char)

/-- What the closing delimiter leaves. -/
def behind? (closing : Char) : List Char → Option Captures
  | [] => none
  | c :: s => if c == closing then some ([], s) else none

theorem reads_behind? : (sequence [.one (.only closing)]).Reads (behind? closing) := by
  intro b s
  rw [behind?.eq_def]
  exact takes_nothing.one_seq (.only closing) b s

/-- The run in front of the closing delimiter is never given back. -/
theorem behind?_of_not_stops {s : List Char} (h : ¬Stops (CharClass.except closing).test s) :
    behind? closing s = none := by
  cases s with
  | nil => exact absurd stops_nil h
  | cons c s => exact if_neg fun hc => h (by simpa using hc)

theorem behind?_dropWhile (s : List Char) : behind? closing (s.dropWhile (· != closing)) =
    if s.contains closing then some ([], (s.dropWhile (· != closing)).drop 1) else none := by
  by_cases h : closing ∈ s
  · obtain ⟨t, u, rfl, ht⟩ := List.eq_append_cons_of_mem h
    simp [dropWhile_ne_append ht, behind?]
  · have hnil : s.dropWhile (· != closing) = [] :=
      List.dropWhile_eq_nil_iff.2 fun c hc => bne_iff_ne.2 fun he => h (he ▸ hc)
    simp [hnil, h, behind?]

theorem reads_enclosed : (sequence [.one (.only opening), .group i (.many (.except closing)),
    .one (.only closing)]).Reads fun s =>
      (Feature.Reader.enclosed? opening closing s).map fun x => ([(i, x.1)], x.2) := by
  intro b s
  refine (((reads_behind? closing).group_many_seq i fun _ => behind?_of_not_stops closing).one_seq
    (.only opening) b s).trans ?_
  cases s with
  | nil => rfl
  | cons c s =>
    simp only [CharClass.test_only, CharClass.test_except, behind?_dropWhile,
      Feature.Reader.enclosed?]
    by_cases hc : c = opening <;> by_cases hs : closing ∈ s <;> simp [hc, hs]

theorem reads_enclosedSome : (sequence [.one (.only opening), .group i (.many1 (.except closing)),
    .one (.only closing)]).Reads fun s =>
      (Feature.Reader.enclosedSome? opening closing s).map fun x => ([(i, x.1)], x.2) := by
  intro b s
  refine (((reads_behind? closing).group_many1_seq i
    (.inr fun _ => behind?_of_not_stops closing)).one_seq (.only opening) b s).trans ?_
  cases s with
  | nil => rfl
  | cons c s =>
    simp only [CharClass.test_only, CharClass.test_except, behind?_dropWhile,
      Feature.Reader.enclosedSome?, Feature.Reader.enclosed?]
    by_cases hne : s.takeWhile (· != closing) = [] <;> by_cases hc : c = opening <;>
      by_cases hs : closing ∈ s <;> simp [hc, hs, hne]

end Enclosed

/-- A group that may be missing. -/
def orNothing (i : Nat) (found : Option (List Char × List Char)) (s : List Char) : Captures :=
  let x := Feature.Reader.orKeep found s
  (x.1.toList.map (i, ·), x.2)

theorem takes_optional {q : Pattern} {i : Nat} {find : List Char → Option (List Char × List Char)}
    (h : q.Reads fun s => (find s).map fun x => ([(i, x.1)], x.2)) :
    (optional q).Takes fun s => orNothing i (find s) s := by
  intro b s
  rw [h.optional b s]
  dsimp only
  cases find s <;> rfl

/-- What is captured behind the parameters of a stage. -/
def atCondition (s : List Char) : Captures :=
  let y := orNothing 3 (Feature.Reader.enclosedSome? '\x7b' '\x7d' s) s
  (y.1, trimStart y.2)

theorem takes_atCondition : (sequence [.optional braced, .many .blank]).Takes atCondition := by
  intro b s
  refine ((takes_optional (reads_enclosedSome 3 '\x7b' '\x7d')).seq
    ((takes_many .blank).seq takes_nothing) b s).trans ?_
  simp only [List.append_nil]
  rfl

/-- What is captured behind the name of a stage. -/
def atParameters (s : List Char) : Captures :=
  let x := orNothing 2 (Feature.Reader.enclosed? '(' ')' s) s
  let y := atCondition (trimStart x.2)
  (x.1 ++ y.1, y.2)

theorem takes_atParameters :
    (sequence [.optional parenthesized, .many .blank, .optional braced, .many .blank]).Takes
      atParameters :=
  (takes_optional (reads_enclosed 2 '(' ')')).seq ((takes_many .blank).seq takes_atCondition)

/-- What stands behind the name of a stage never fails, so none of the name is given back. -/
theorem reads_partsOfStage : partsOfStage.Reads fun s =>
    let name := (trimStart s).takeWhile isWord
    let x := atParameters (trimStart ((trimStart s).dropWhile isWord))
    if name = [] then none else some ((1, name) :: x.1, x.2) := by
  have hblank (u : List Char) (hu : ¬Stops isBlank u) : u.takeWhile isWord = [] := by
    cases u with
    | nil => exact absurd stops_nil hu
    | cons c u =>
      have hc : isBlank c = true := by simpa using hu
      have hw : ¬isWord c = true := fun hw =>
        Bool.false_ne_true ((not_isBlank_of_isWord hw).symm.trans hc)
      simp [hw]
  have hname := Reads.group_many1_seq (k := .word) 1
    ((takes_many .blank).seq takes_atParameters) (.inl fun _ => rfl)
  exact hname.many_seq (k := .blank) fun u hu => if_pos (hblank u hu)

theorem lookup_captures (name : List Char) (x y : Option (List Char)) :
    let gs := (1, name) :: (x.toList.map (2, ·) ++ y.toList.map (3, ·))
    gs.lookup 1 = some name ∧ gs.lookup 2 = x ∧ gs.lookup 3 = y := by
  cases x <;> cases y <;> exact ⟨rfl, rfl, rfl⟩

/-- The reader takes the parts of a stage from where the pattern captures them, and goes on behind
what the pattern takes up. -/
theorem find?_stage (s : List Char) :
    (stage.find? s).map (fun m => (m.group? 1, m.group? 2, m.group? 3, m.rest)) =
      (Feature.Reader.stageParts? s).map fun p =>
        (some p.name, p.parameters, p.condition, p.rest) := by
  have hfirst : (stage.find? s).map (fun m => (m.group? 1, m.group? 2, m.group? 3, m.rest)) =
      (partsOfStage.first? true s).map fun x =>
        (x.1.lookup 1, x.1.lookup 2, x.1.lookup 3, x.2) := by
    rw [stage, find?_start, first?, Option.map_map]
    rfl
  rw [hfirst, reads_partsOfStage, Feature.Reader.stageParts?_eq]
  dsimp only
  split
  case isTrue => rfl
  case isFalse =>
    rw [Option.map_some, Option.map_some, atParameters, atCondition, orNothing, orNothing]
    obtain ⟨hname, hparameters, hcondition⟩ := lookup_captures ((trimStart s).takeWhile isWord) _ _
    dsimp only
    rw [hname, hparameters, hcondition]

end Pattern

end AudioFeatures
