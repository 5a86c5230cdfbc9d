import AudioFeatures.Proofs.Feature.Reader

/-! # Reading back what was written

The text of a well-formed feature has a derivation, which denotes that feature without what a
catalog added to its stages.
-/

namespace AudioFeatures

open Text Feature.Grammar

section Separated

variable {α β γ : Type} {f : List Char → α → β} {xs : List α}

/-- What is written one behind the other; all but the first stand behind a blank. -/
def separated (f : List Char → α → β) : List α → List β
  | [] => []
  | x :: xs => f [] x :: xs.map (f [' '])

theorem separated_ne_nil (h : xs ≠ []) : separated f xs ≠ [] := by
  cases xs with
  | nil => exact absurd rfl h
  | cons x xs => exact List.cons_ne_nil _ _

theorem exists_of_mem_separated {y : β} (h : y ∈ separated f xs) :
    ∃ b, AllBlank b ∧ ∃ x ∈ xs, f b x = y := by
  cases xs with
  | nil => cases h
  | cons x xs =>
    rcases List.mem_cons.1 h with rfl | h
    · exact ⟨[], allBlank_nil, x, List.mem_cons_self, rfl⟩
    · obtain ⟨z, hz, rfl⟩ := List.mem_map.1 h
      exact ⟨[' '], by decide, z, List.mem_cons_of_mem _ hz, rfl⟩

theorem map_separated {g : β → γ} {k : α → γ}
    (h : ∀ b, AllBlank b → ∀ x ∈ xs, g (f b x) = k x) : (separated f xs).map g = xs.map k := by
  cases xs with
  | nil => rfl
  | cons x xs =>
    have hx : g (f [] x) = k x := h [] allBlank_nil x List.mem_cons_self
    rw [separated, List.map_cons, List.map_map, List.map_cons, hx]
    exact congrArg _ (List.map_congr_left fun z hz => h _ (by decide) z (List.mem_cons_of_mem _ hz))

/-- The blank behind a comma belongs to what follows it. -/
theorem intercalate_separated {g : β → List Char} {k : α → List Char}
    (h : ∀ b x, g (f b x) = b ++ k x) (xs : List α) :
    [','].intercalate ((separated f xs).map g) = [',', ' '].intercalate (xs.map k) := by
  have hcons (p : List Char) (ps : List (List Char)) :
      [','].intercalate (p :: ps.map ([' '] ++ ·)) = [',', ' '].intercalate (p :: ps) := by
    induction ps generalizing p with
    | nil => simp
    | cons q ps ih => simp [List.intercalate_cons_cons, ← ih]
  cases xs with
  | nil => rfl
  | cons x xs =>
    rw [List.map_cons, ← hcons, List.map_map, separated, List.map_cons, List.map_map, h]
    simp [Function.comp_def, h]

end Separated

namespace Transform

variable {t : Transform} {b : List Char}

/-- A setting as it is written between parentheses. -/
def settingPiece (b : List Char) (e : String × String) : Piece :=
  .setting (b ++ e.1.toList) e.2.toList

/-- How the text of a stage comes about. -/
def derivation (b : List Char) (t : Transform) : Stage where
  blanks := b
  name := ⟨t.name.toList, []⟩
  parameters :=
    if t.parameters.isEmpty then none
    else some ⟨separated settingPiece t.parameters.entries, []⟩
  condition := t.condition.map fun c => ⟨c.toList, []⟩

theorem piecesText_separated (es : List (String × String)) :
    piecesText (separated settingPiece es) =
      [',', ' '].intercalate (es.map fun e => (e.1 ++ "=" ++ e.2).toList) :=
  intercalate_separated (fun b e => by simp [settingPiece, Piece.text]) es

theorem text_derivation (b : List Char) (t : Transform) :
    (t.derivation b).text = b ++ t.text.toList := by
  have hpipeline : t.name.toList ++
      enclosed '(' ')' ((t.derivation b).parameters.map (Spaced.map piecesText)) =
        t.pipelineText.toList := by
    rw [pipelineText, derivation]
    split
    · simp [enclosed]
    · simp [enclosed, Spaced.map, piecesText_separated, String.toList_intercalate,
        Function.comp_def]
  have hcondition : enclosed '\x7b' '\x7d' (t.derivation b).condition =
      (t.condition.elim "" fun c => "\x7b" ++ c ++ "\x7d").toList := by
    rw [derivation]
    cases t.condition <;> simp [enclosed]
  have htext : t.text.toList = t.pipelineText.toList ++
      (t.condition.elim "" fun c => "\x7b" ++ c ++ "\x7d").toList := by
    rw [text]
    cases t.condition <;> simp
  rw [htext, ← hpipeline, ← hcondition, Stage.text, Stage.tail]
  simp [derivation]

theorem wellFormed_settingPiece {e : String × String} (h : IsSetting e.1.toList e.2.toList)
    (hb : AllBlank b) : (settingPiece b e).WellFormed := by
  obtain ⟨⟨hne, hname, hcomma, hclosing, heq⟩, -, hcomma', hclosing'⟩ := h
  have hnot {c : Char} (hc : isBlank c = false) (h : c ∉ e.1.toList) : c ∉ b ++ e.1.toList := by
    rw [List.mem_append, not_or]
    exact ⟨hb.not_mem hc, h⟩
  refine ⟨?_, ?_, hnot (by decide) heq, fun hblank => hne ?_⟩
  · simpa [settingPiece, Piece.text, hcomma'] using hnot (by decide) hcomma
  · simpa [settingPiece, Piece.text, hclosing'] using hnot (by decide) hclosing
  · rw [← show trim e.1.toList = e.1.toList from hname, trim_eq_nil_iff]
    exact fun c hc => hblank c (List.mem_append_right b hc)

theorem wellFormed_derivation (h : t.WellFormed) (hb : AllBlank b) :
    (t.derivation b).WellFormed where
  blanks := hb
  name := ⟨h.1.1, allBlank_nil⟩
  parameters := by
    intro p hp
    rw [derivation] at hp
    split at hp
    · cases hp
    case isFalse hne =>
      cases hp
      have hne : t.parameters.entries ≠ [] := by simpa [Dict.isEmpty] using hne
      refine ⟨⟨separated_ne_nil hne, fun q hq => ?_⟩, allBlank_nil⟩
      obtain ⟨b, hb, e, he, rfl⟩ := exists_of_mem_separated hq
      exact wellFormed_settingPiece (h.1.2 e he) hb
  condition := by
    intro c hc
    obtain ⟨s, hs, rfl⟩ := Option.map_eq_some_iff.1 hc
    obtain ⟨hne, -, hclosing⟩ := h.2 s hs
    exact ⟨⟨hne, hclosing⟩, allBlank_nil⟩

/-- The settings are read as they were written; their order does not matter. -/
theorem ofList_settings_derivation (h : t.WellFormed) :
    Dict.ofList (t.derivation b).settings = t.parameters := by
  rw [Stage.settings, derivation]
  split
  case isTrue he =>
    have hnil : t.parameters.entries = [] := by simpa [Dict.isEmpty] using he
    exact Dict.ext hnil.symm
  case isFalse =>
    have hmap : (separated settingPiece t.parameters.entries).map Piece.setting? =
        t.parameters.entries.map some := by
      refine map_separated fun b hb e he => ?_
      obtain ⟨⟨-, hname, -⟩, hvalue, -⟩ := h.1.2 e he
      have hname : trim e.1.toList = e.1.toList := hname
      have hvalue : trim e.2.toList = e.2.toList := hvalue
      simp [settingPiece, Piece.setting?, trim_append_of_allBlank hb, hname, hvalue]
    have hsettings : (separated settingPiece t.parameters.entries).filterMap Piece.setting? =
        t.parameters.entries := by
      simpa [List.filterMap_map] using congrArg (List.filterMap id) hmap
    rw [Option.elim_some, hsettings, Dict.ofList_entries]

theorem transform_derivation (h : t.WellFormed) : (t.derivation b).transform = t.unresolved := by
  have hcondition : (t.derivation b).condition? = t.condition := by
    rw [Stage.condition?, derivation]
    cases hc : t.condition with
    | none => rfl
    | some c => simp [show trim c.toList = c.toList from (h.2 c hc).2.1]
  rw [Stage.transform, ofList_settings_derivation h, hcondition]
  simp [derivation, unresolved]

end Transform

namespace Feature

/-- How the text of a name and stages comes about. -/
def derivation (name : String) (ts : List Transform) : Derivation where
  blanks := []
  name := ⟨name.toList, [' ']⟩
  stages := separated Transform.derivation ts
  behind := []

theorem text_derivation (name : String) (ts : List Transform) :
    (derivation name ts).text = (join name (ts.map Transform.text)).toList := by
  have hstages : stagesText (separated Transform.derivation ts) =
      [',', ' '].intercalate (ts.map fun t => t.text.toList) :=
    intercalate_separated Transform.text_derivation ts
  simp [Derivation.text, derivation, hstages, join, String.toList_intercalate, Function.comp_def]

theorem wellFormed_derivation {name : String} {ts : List Transform} (hn : IsName name.toList)
    (hne : ts ≠ []) (h : ∀ t ∈ ts, t.WellFormed) : (derivation name ts).WellFormed where
  blanks := allBlank_nil
  name := ⟨hn, show AllBlank [' '] by decide⟩
  stages := by
    refine ⟨separated_ne_nil hne, fun s hs => ?_⟩
    obtain ⟨b, hb, t, ht, rfl⟩ := exists_of_mem_separated hs
    exact Transform.wellFormed_derivation (h t ht) hb
  behind := allBlank_nil

theorem parse_join {name : String} {ts : List Transform} (hn : IsName name.toList) (hne : ts ≠ [])
    (h : ∀ t ∈ ts, t.WellFormed) :
    parse (join name (ts.map Transform.text)) = .ok ⟨name, ts.map Transform.unresolved⟩ := by
  refine parse_eq_ok_iff.2
    ⟨derivation name ts, ⟨wellFormed_derivation hn hne h, text_derivation name ts⟩, ?_⟩
  have hstages : (separated Transform.derivation ts).map Stage.transform =
      ts.map Transform.unresolved :=
    map_separated fun b _ t ht => Transform.transform_derivation (h t ht)
  simp [Derivation.feature, derivation, hstages]

/-- Reading undoes writing, up to what only a catalog knows. -/
theorem parse_text {f : Feature} (h : f.WellFormed) : parse f.text = .ok f.unresolved :=
  parse_join h.1 h.2.1 h.2.2

/-- Separators inside of values and conditions are read as part of them. -/
theorem parse_text_separators :
    let gain : Transform := {
      name := "Gain", parameters := ⟨[("at", "[1=(2"), ("to\n(", "\x7d]\n\x7b x")], by decide⟩
      condition := some "(channels > 1), [2]\x7b" }
    let f : Feature := ⟨"Mix_2", [gain, { name := "Energy", outputFormat := "float" }, gain]⟩
    f.WellFormed ∧ parse f.text = .ok f.unresolved :=
  ⟨by decide, parse_text (by decide)⟩

end Feature

end AudioFeatures
