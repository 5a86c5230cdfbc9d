import AudioFeatures.Proofs.Feature.Parsed
import AudioFeatures.Proofs.Feature.RoundTrip

/-! # Conditions of blanks

A condition of nothing but blanks is read as the empty condition. It is written as braces that hold
nothing, at which the reader stops. Every other feature that was read is written as a text that
denotes it again.
-/

namespace AudioFeatures

open Text

namespace Transform

variable {t : Transform}

theorem text_of_blank (h : t.condition = some "") :
    t.text = t.unconditional.text ++ "\x7b\x7d" := by
  simp only [text, h, String.append_assoc]
  rfl

end Transform

namespace Feature

open Grammar

variable {text : String} {f : Feature}

/-! ## Braces that hold nothing -/

theorem Grammar.stagesText_of_blank {t : Transform} (h : t.condition = some "") (b : List Char)
    (cs : List Stage) : stagesText (t.derivation b :: cs) =
      (t.unconditional.derivation b).text ++ '\x7b' :: '\x7d' :: stagesBehind cs := by
  rw [stagesText_cons, Transform.text_derivation, Transform.text_derivation,
    Transform.text_of_blank h]
  simp

namespace Reader

variable {c : Stage} {r : List Char}

/-- Behind a stage without a condition the reader stops at empty braces. -/
theorem stages_empty_braces (hc : c.WellFormed) (hcondition : c.condition = none) (n : Nat) :
    stages text (n + 1) (c.text ++ '\x7b' :: '\x7d' :: r) =
      .error (.separator (String.ofList ('\x7b' :: '\x7d' :: r)) text) := by
  have hnone : enclosedSome? '\x7b' '\x7d' ('\x7b' :: '\x7d' :: r) = none := by
    simp [enclosedSome?, enclosed?]
  have hstart : trimStart ('\x7b' :: '\x7d' :: r) = '\x7b' :: '\x7d' :: r :=
    trimStart_of_stops (by simp [isBlank])
  have hparts : stageParts? (c.text ++ '\x7b' :: '\x7d' :: r) =
      some (partsOf c ('\x7b' :: '\x7d' :: r)) := by
    refine stageParts?_append hc (by simp [isWord]) (by simp [isBlank]) ?_
    simpa only [hcondition, enclosed, List.nil_append, hnone, Option.map_none] using
      ⟨rfl, hstart⟩
  rw [stages, hparts]
  dsimp only
  rw [stage_text hc]
  rfl

variable {t : Transform} {b : List Char}

theorem stages_of_head_blank (text : String) (ht : t.IsRead) (hblank : t.condition = some "")
    (hb : AllBlank b) (cs : List Stage) (n : Nat) :
    ∃ rest, stages text (n + 1) (stagesText (t.derivation b :: cs)) =
      .error (.separator (String.ofList ('\x7b' :: '\x7d' :: rest)) text) := by
  have hc := Transform.wellFormed_derivation ht.wellNamed.unconditional hb
  exact ⟨_, by rw [stagesText_of_blank hblank, stages_empty_braces hc rfl]⟩

/-- The stages in front of the first that is written with empty braces are read. -/
theorem stages_of_blank (text : String) {ts : List Transform} {n : Nat}
    (hread : ∀ u ∈ t :: ts, u.IsRead) (hblank : ∃ u ∈ t :: ts, u.condition = some "")
    (hb : AllBlank b)
    (hn : (stagesText (t.derivation b :: ts.map (Transform.derivation [' ']))).length ≤ n) :
    ∃ rest, stages text (n + 1)
        (stagesText (t.derivation b :: ts.map (Transform.derivation [' ']))) =
      .error (.separator (String.ofList ('\x7b' :: '\x7d' :: rest)) text) := by
  induction ts generalizing t b n with
  | nil => exact stages_of_head_blank text (hread t (by simp)) (by simpa using hblank) hb _ n
  | cons u us ih =>
    obtain ⟨ht, hus⟩ := List.forall_mem_cons.1 hread
    by_cases hhead : t.condition = some ""
    · exact stages_of_head_blank text ht hhead hb _ n
    · rw [stagesText_cons, stagesBehind_eq (by simp), List.length_append, List.length_cons] at hn
      obtain ⟨n, rfl⟩ : ∃ m, n = m + 1 := Nat.exists_eq_add_one.2 (by omega)
      have hlength : (stagesText ((u :: us).map (Transform.derivation [' ']))).length ≤ n := by
        omega
      obtain ⟨rest, hrest⟩ :=
        ih hus (by simpa [hhead] using hblank) (show AllBlank [' '] by decide) hlength
      have hc := Transform.wellFormed_derivation (ht.wellFormed hhead) hb
      exact ⟨rest, by rw [List.map_cons, stages_text_cons hc (by simp), hrest]; rfl⟩

/-- A written feature is taken apart whatever its conditions are. -/
theorem split?_text (hname : IsName f.name.toList) : split? f.text.toList =
    some (f.name.toList, stagesText (separated Transform.derivation f.stages)) :=
  split?_eq_some_iff.2 ⟨[], [' '], [], (Feature.text_derivation f.name f.stages).symm,
    allBlank_nil, ⟨hname, by decide⟩, allBlank_nil⟩

end Reader

/-- The text of a feature that was read denotes the feature, unless one of its conditions was made
of blanks: there the reader expects the next stage and finds braces that hold nothing. -/
theorem parse_text_of_parse (h : parse text = .ok f) :
    ((∀ t ∈ f.stages, t.condition ≠ some "") → parse f.text = .ok f) ∧
    ((∃ t ∈ f.stages, t.condition = some "") → ∃ rest, parse f.text =
      .error (.featureSyntax (.separator ("\x7b\x7d" ++ rest) f.text))) := by
  obtain ⟨hname, hne, -⟩ := wellNamed_parse h
  have hread := isRead_of_parse h
  constructor
  · intro hblank
    have hf : ∀ t ∈ f.stages, t.WellFormed := fun t ht => (hread t ht).wellFormed (hblank t ht)
    calc parse f.text = .ok f.unresolved := parse_join hname hne hf
      _ = .ok f := by rw [unresolved_of_parse h]
  · intro hblank
    have hsplit := Reader.split?_text hname
    obtain ⟨t, ts, hstages⟩ := List.exists_cons_of_ne_nil hne
    rw [hstages, separated] at hsplit
    rw [hstages] at hread hblank
    obtain ⟨rest, hrest⟩ := Reader.stages_of_blank f.text hread hblank allBlank_nil le_rfl
    have hbraces : "\x7b\x7d" ++ String.ofList rest = String.ofList ('\x7b' :: '\x7d' :: rest) :=
      (String.ofList_append ..).symm
    refine ⟨String.ofList rest, ?_⟩
    rw [parse, hsplit, hbraces]
    simp only [hrest]

/-- A blank between the braces is lost, and with it the condition. -/
theorem not_parse_text_of_blank :
    let f : Feature := ⟨"A", [{ name := "B", condition := some "" }]⟩
    parse "A [B\x7b \x7d]" = .ok f ∧ parse f.text ≠ .ok f := by
  intro f
  refine ⟨by cbv, fun h => ?_⟩
  have hfault : parse f.text = .error (.featureSyntax (.separator "\x7b\x7d" "A [B\x7b\x7d]")) := by
    cbv
  cases h.symm.trans hfault

/-- Blank parameters and repeated ones are dropped for good, an empty value and the separators
inside of values and conditions are kept. -/
theorem parse_text_of_parse_dropped :
    let gain : Transform := {
      name := "Gain", parameters := ⟨[("at", "[=2"), ("to", "")], by decide⟩
      condition := some "(channels > 1), [2]" }
    let f : Feature := ⟨"Mix_2", [gain, { name := "Energy" }]⟩
    parse "Mix_2[ Gain\n(at =1, ,to= ,at= [=2) \x7b (channels > 1), [2] \x7d,Energy ( , ) ]" =
        .ok f ∧
      parse f.text = .ok f := by
  intro gain f
  have h : parse
      "Mix_2[ Gain\n(at =1, ,to= ,at= [=2) \x7b (channels > 1), [2] \x7d,Energy ( , ) ]" =
        .ok f := by cbv
  exact ⟨h, (parse_text_of_parse h).1 (by decide)⟩

end Feature

end AudioFeatures
