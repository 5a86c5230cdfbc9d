import AudioFeatures.Feature.Reader
import AudioFeatures.Proofs.Fallible
import AudioFeatures.Proofs.Feature.Grammar

/-! # The reader and the grammar

Every part of the reader finds what the grammar allows at the front of a text, and nothing else. A
text is a feature exactly if it has a derivation.
-/

namespace AudioFeatures.Feature

open Text Grammar

namespace Reader

variable {text : String} {s t p q r : List Char}

/-! ## Parameters -/

theorem pieces_eq_splitOn (s : List Char) : pieces s = s.splitOn ',' := by
  induction s with
  | nil => rfl
  | cons c s ih =>
    rw [pieces, List.splitOn_cons_eq_if_modifyHead, ih]
    split
    · rfl
    · cases h : s.splitOn ',' with
      | nil => exact absurd h (List.splitOn_ne_nil ',' s)
      | cons p ps => rfl

/-- A piece holds no comma and nothing that the text does not hold. -/
theorem pieces_sub (hp : p ∈ pieces s) : ',' ∉ p ∧ p ⊆ s := by
  induction s generalizing p with
  | nil =>
    obtain rfl : p = [] := by simpa [pieces] using hp
    simp
  | cons c s ih =>
    rw [pieces] at hp
    split at hp
    · rcases List.mem_cons.1 hp with rfl | hp
      · simp
      · exact ⟨(ih hp).1, List.subset_cons_of_subset c (ih hp).2⟩
    case isFalse hc =>
      have hc : ',' ≠ c := fun h => hc (beq_iff_eq.2 h.symm)
      split at hp
      case h_1 q qs hq =>
        rcases List.mem_cons.1 hp with rfl | hp
        · obtain ⟨hcomma, hsub⟩ := ih (p := q) (hq ▸ List.mem_cons_self)
          exact ⟨List.not_mem_cons_of_ne_of_not_mem hc hcomma, List.cons_subset_cons c hsub⟩
        · obtain ⟨hcomma, hsub⟩ := ih (hq ▸ List.mem_cons_of_mem _ hp)
          exact ⟨hcomma, List.subset_cons_of_subset c hsub⟩
      · obtain rfl : p = [c] := by simpa using hp
        simp [hc]

theorem mem_piecesOf {x : Piece} (h : x ∈ piecesOf s) : ',' ∉ x.text ∧ x.text ⊆ s := by
  obtain ⟨p, hp, rfl⟩ := List.mem_map.1 h
  rw [Piece.text_ofText]
  exact pieces_sub (pieces_eq_splitOn s ▸ hp)

theorem parameter_trim_setting {name value : List Char} (hname : '=' ∉ name) :
    parameter text (trim (name ++ '=' :: value)) =
      if trim name = [] then .error (.missingName text)
      else .ok (String.ofList (trim name), String.ofList (trim value)) := by
  have hstart : '=' ∉ trimStart name := fun h => hname ((isSuffix_trimStart name).subset h)
  rw [trim_append_cons (by decide), parameter, if_neg (by simp), takeWhile_ne_append hstart,
    dropWhile_ne_append hstart, trim_trimStart]
  split
  case h_1 h => rw [if_pos h]
  case h_2 h => simp only [if_neg h, List.drop_succ_cons, List.drop_zero, trim_trimEnd]

theorem parameter_of_not_mem (h : '=' ∉ p) :
    parameter text p = .error (.missingValue (String.ofList p) text) :=
  if_pos (by simpa using h)

/-- A piece that is not blank is read exactly if the grammar allows it. -/
theorem parameter_trim_eq_ok_iff {e : String × String} (hq : trim q ≠ []) :
    parameter text (trim q) = .ok e ↔
      (Piece.ofText q).Allowed ∧ (Piece.ofText q).setting? = some e := by
  by_cases h : '=' ∈ q
  · obtain ⟨name, value, rfl, hname⟩ := List.eq_append_cons_of_mem h
    have hpiece : Piece.ofText (name ++ '=' :: value) = .setting name value := by
      rw [Piece.ofText, if_pos h, takeWhile_ne_append hname, dropWhile_ne_append hname]
      rfl
    rw [parameter_trim_setting hname, hpiece, Piece.Allowed, Piece.setting?, ← trim_eq_nil_iff]
    by_cases hblank : trim name = [] <;> simp [hname, hblank]
  · have hpiece : Piece.ofText q = .blank q := if_neg h
    rw [parameter_of_not_mem fun hm => h (mem_of_mem_trim hm), hpiece]
    simp [Piece.setting?]

theorem piece_of_allBlank (hq : AllBlank q) :
    (Piece.ofText q).Allowed ∧ (Piece.ofText q).setting? = none := by
  have hpiece : Piece.ofText q = .blank q := Piece.ofText_text (p := .blank q) hq
  rw [hpiece]
  exact ⟨hq, rfl⟩

theorem exists_setting (hq : trim q ≠ []) (h : (Piece.ofText q).Allowed) :
    ∃ e, (Piece.ofText q).setting? = some e := by
  match hp : Piece.ofText q with
  | .setting name value => exact ⟨_, rfl⟩
  | .blank s =>
    obtain rfl : s = q := by rw [← Piece.text_ofText q, hp, Piece.text]
    rw [hp] at h
    exact absurd (trim_eq_nil_iff.2 h) hq

theorem mapM_parameter {qs : List (List Char)} {es : List (String × String)} :
    ((qs.map trim).filter fun p => !p.isEmpty).mapM (parameter text) = .ok es ↔
      (∀ x ∈ qs.map Piece.ofText, x.Allowed) ∧
        (qs.map Piece.ofText).filterMap Piece.setting? = es := by
  induction qs generalizing es with
  | nil => simp [pure, Except.pure]
  | cons q qs ih =>
    by_cases hq : trim q = []
    · obtain ⟨hallowed, hsetting⟩ := piece_of_allBlank (trim_eq_nil_iff.1 hq)
      simpa [hq, hallowed, hsetting] using ih
    · have hkeep : (trim q :: qs.map trim).filter (fun p => !p.isEmpty) =
          trim q :: (qs.map trim).filter fun p => !p.isEmpty :=
        List.filter_cons_of_pos (by simpa using hq)
      rw [List.map_cons, hkeep, List.mapM_cons, bind_eq_ok_iff, List.map_cons, List.forall_mem_cons]
      constructor
      · rintro ⟨e, he, h⟩
        obtain ⟨fs, hfs, h⟩ := bind_eq_ok_iff.1 h
        obtain ⟨hallowed, hsetting⟩ := (parameter_trim_eq_ok_iff hq).1 he
        obtain ⟨hrest, rfl⟩ := ih.1 hfs
        cases h
        exact ⟨⟨hallowed, hrest⟩, List.filterMap_cons_some hsetting⟩
      · rintro ⟨⟨hallowed, hrest⟩, rfl⟩
        obtain ⟨e, he⟩ := exists_setting hq hallowed
        rw [List.filterMap_cons_some he]
        exact ⟨e, (parameter_trim_eq_ok_iff hq).2 ⟨hallowed, he⟩,
          bind_eq_ok_iff.2 ⟨_, ih.2 ⟨hrest, rfl⟩, rfl⟩⟩

theorem parameters_eq_ok_iff {d : Dict String} :
    parameters text s = .ok d ↔
      (∀ x ∈ piecesOf s, x.Allowed) ∧ Dict.ofList ((piecesOf s).filterMap Piece.setting?) = d := by
  rw [parameters, map_eq_ok_iff, pieces_eq_splitOn]
  simp only [mapM_parameter, piecesOf]
  constructor
  · rintro ⟨es, ⟨h, rfl⟩, rfl⟩
    exact ⟨h, rfl⟩
  · rintro ⟨h, rfl⟩
    exact ⟨_, ⟨h, rfl⟩, rfl⟩

/-! ## Delimiters -/

theorem enclosed?_eq_some_iff (opening closing : Char) :
    enclosed? opening closing s = some (p, r) ↔
      s = opening :: (p ++ closing :: r) ∧ closing ∉ p := by
  constructor
  · intro h
    unfold enclosed? at h
    split at h
    · cases h
    split at h
    case isFalse => cases h
    case isTrue c s hc =>
      obtain ⟨rfl, hmem⟩ : c = opening ∧ closing ∈ s := by simpa using hc
      obtain ⟨a, b, rfl, ha⟩ := List.eq_append_cons_of_mem hmem
      rw [takeWhile_ne_append ha, dropWhile_ne_append ha] at h
      cases h
      exact ⟨rfl, ha⟩
  · rintro ⟨rfl, hp⟩
    simp [enclosed?, takeWhile_ne_append hp, dropWhile_ne_append hp]

theorem enclosedSome?_eq_some_iff (opening closing : Char) :
    enclosedSome? opening closing s = some (p, r) ↔
      s = opening :: (p ++ closing :: r) ∧ p ≠ [] ∧ closing ∉ p := by
  rw [enclosedSome?, Option.filter_eq_some_iff, enclosed?_eq_some_iff, and_assoc]
  simp [and_comm]

/-- What a group at the front holds and what follows it; without a group the text is kept. -/
def orKeep (found : Option (List Char × List Char)) (s : List Char) :
    Option (List Char) × List Char :=
  match found with
  | some (p, r) => (some p, r)
  | none => (none, s)

section Group

/-! A group is found by a function `find`, and `P` says what it may hold. -/

variable {opening closing : Char} {find : List Char → Option (List Char × List Char)}
  {P : List Char → Prop} {x : Option (Spaced (List Char))}

theorem orKeep_enclosed
    (hfind : ∀ {s p r}, find s = some (p, r) ↔ s = opening :: (p ++ closing :: r) ∧ P p)
    (hx : ∀ y ∈ x, P y.part ∧ AllBlank y.blanks)
    (ht : Stops (fun c => isBlank c || c == opening) t) :
    let y := orKeep (find (enclosed opening closing x ++ t)) (enclosed opening closing x ++ t)
    y.1 = x.map Spaced.part ∧ trimStart y.2 = t := by
  have hblank : Stops isBlank t := fun c hc => (Bool.or_eq_false_iff.1 (ht c hc)).1
  cases x with
  | none =>
    have hnone : find t = none := by
      refine Option.eq_none_iff_forall_not_mem.2 fun y hy => ?_
      obtain ⟨rfl, -⟩ := hfind.1 (show find t = some (y.1, y.2) from hy)
      simp at ht
    simp [enclosed, hnone, orKeep, trimStart_of_stops hblank]
  | some y =>
    obtain ⟨hp, hb⟩ := hx y rfl
    have hsome : find (enclosed opening closing (some y) ++ t) = some (y.part, y.blanks ++ t) :=
      hfind.2 ⟨by simp [enclosed], hp⟩
    rw [hsome]
    exact ⟨rfl, (trimStart_append_of_allBlank hb).trans (trimStart_of_stops hblank)⟩

theorem exists_enclosed
    (hfind : ∀ {s p r}, find s = some (p, r) ↔ s = opening :: (p ++ closing :: r) ∧ P p)
    (hs : Stops isBlank s) : let y := orKeep (find s) s
    ∃ x : Option (Spaced (List Char)), (∀ y ∈ x, P y.part ∧ AllBlank y.blanks) ∧
      s = enclosed opening closing x ++ trimStart y.2 ∧ y.1 = x.map Spaced.part := by
  cases h : find s with
  | none => exact ⟨none, by simp, (trimStart_of_stops hs).symm, rfl⟩
  | some y =>
    obtain ⟨hs, hp⟩ := hfind.1 (show find s = some (y.1, y.2) from h)
    obtain ⟨b, hb, hr⟩ := exists_append_trimStart y.2
    refine ⟨some ⟨y.1, b⟩, by simpa using ⟨hp, hb⟩, ?_, rfl⟩
    rw [hs, enclosed, orKeep]
    simpa using hr

end Group

/-! ## Stages -/

theorem stageParts?_eq (s : List Char) :
    stageParts? s =
      let name := (trimStart s).takeWhile isWord
      let behindName := trimStart ((trimStart s).dropWhile isWord)
      let x := orKeep (enclosed? '(' ')' behindName) behindName
      let y := orKeep (enclosedSome? '\x7b' '\x7d' (trimStart x.2)) (trimStart x.2)
      if name = [] then none else some ⟨name, x.1, y.1, trimStart y.2⟩ := by
  rw [stageParts?]
  split
  case h_1 h => simp [h]
  case h_2 h => simp only [if_neg h]; rfl

/-- The parts of a stage as the reader hands them on. -/
def partsOf (c : Stage) (r : List Char) : StageParts where
  name := c.name.part
  parameters := c.parameters.map fun p => piecesText p.part
  condition := c.condition.map Spaced.part
  rest := r

variable {c : Stage}

/-- A stage is read up to a text that none of its parts goes on with. -/
theorem stageParts?_append (hc : c.WellFormed) (hword : Stops isWord r)
    (hopening : Stops (fun c => isBlank c || c == '(') r)
    (hcondition : let s := enclosed '\x7b' '\x7d' c.condition ++ r
      let y := orKeep (enclosedSome? '\x7b' '\x7d' s) s
      y.1 = c.condition.map Spaced.part ∧ trimStart y.2 = r) :
    stageParts? (c.text ++ r) = some (partsOf c r) := by
  have hblank : Stops isBlank r := fun c hc => (Bool.or_eq_false_iff.1 (hopening c hc)).1
  have htail : c.tail ++ r = enclosed '(' ')' (c.parameters.map (Spaced.map piecesText)) ++
      (enclosed '\x7b' '\x7d' c.condition ++ r) := by
    rw [Stage.tail, List.append_assoc]
  have hstart : trimStart (c.text ++ r) = c.name.part ++ (c.name.blanks ++ (c.tail ++ r)) := by
    rw [Stage.text, List.append_assoc, trimStart_append_of_allBlank hc.blanks, List.append_assoc,
      List.append_assoc]
    exact trimStart_of_stops hc.name.1.stops_isBlank
  have hstop : Stops isWord (c.name.blanks ++ (c.tail ++ r)) := by
    rw [htail]
    exact stops_isWord_append hc.name.2
      (stops_enclosed (by decide) (stops_enclosed (by decide) hword))
  have hbehind : trimStart (c.name.blanks ++ (c.tail ++ r)) = c.tail ++ r := by
    rw [trimStart_append_of_allBlank hc.name.2, htail]
    exact trimStart_of_stops (stops_enclosed rfl (stops_enclosed rfl hblank))
  obtain ⟨hparameters, hbrace⟩ := orKeep_enclosed (enclosed?_eq_some_iff '(' ')')
    hc.closed_parameters (t := enclosed '\x7b' '\x7d' c.condition ++ r)
    (stops_enclosed (by decide) hopening)
  obtain ⟨hcondition, hrest⟩ := hcondition
  rw [← htail] at hparameters hbrace
  rw [stageParts?_eq]
  simp only [hstart, takeWhile_append_of_stops hc.name.1.2 hstop,
    dropWhile_append_of_stops hc.name.1.2 hstop, hbehind, if_neg hc.name.1.1]
  rw [hparameters, hbrace, hcondition, hrest, partsOf, Option.map_map]
  rfl

/-- A stage is read up to the separator behind it. -/
theorem stageParts?_text (hc : c.WellFormed) (hr : AtSeparator r) :
    stageParts? (c.text ++ r) = some (partsOf c r) :=
  stageParts?_append hc (hr.stops (by decide)) (hr.stops (by decide))
    (orKeep_enclosed (enclosedSome?_eq_some_iff '\x7b' '\x7d') hc.condition
      (hr.stops (by decide)))

/-- A stage whose pieces are those of its text is read exactly if the grammar allows them. -/
theorem stage_partsOf {t : Transform}
    (hc : ∀ p ∈ c.parameters, piecesOf (piecesText p.part) = p.part) :
    stage text (partsOf c r) = .ok t ↔
      (∀ p ∈ c.parameters, ∀ x ∈ p.part, x.Allowed) ∧ c.transform = t := by
  have hcondition : (partsOf c r).condition.map (fun s => String.ofList (trim s)) = c.condition? :=
    Option.map_map ..
  rw [stage, hcondition]
  cases hp : c.parameters with
  | none =>
    have hparts : (partsOf c r).parameters = none := by rw [partsOf, hp]; rfl
    have hsettings : c.settings = [] := by rw [Stage.settings, hp]; rfl
    simp only [hparts, Stage.transform, hsettings]
    simp [bind, Except.bind, pure, Except.pure, partsOf, Dict.ofList]
  | some p =>
    have hparts : (partsOf c r).parameters = some (piecesText p.part) := by rw [partsOf, hp]; rfl
    have hsettings : c.settings = p.part.filterMap Piece.setting? := by rw [Stage.settings, hp]; rfl
    simp only [hparts, Stage.transform, hsettings, bind_eq_ok_iff, parameters_eq_ok_iff, hc p hp]
    simp [pure, Except.pure, partsOf]

theorem exists_stageParts {q : StageParts} (h : stageParts? s = some q) :
    ∃ (b b' : List Char) (x y : Option (Spaced (List Char))),
      s = b ++ (q.name ++ (b' ++ (enclosed '(' ')' x ++ (enclosed '\x7b' '\x7d' y ++ q.rest)))) ∧
      AllBlank b ∧ (IsName q.name ∧ AllBlank b') ∧
      (Closed ')' x ∧ q.parameters = x.map Spaced.part) ∧
      (∀ z ∈ y, (z.part ≠ [] ∧ '\x7d' ∉ z.part) ∧ AllBlank z.blanks) ∧
      q.condition = y.map Spaced.part := by
  rw [stageParts?_eq] at h
  dsimp only at h
  obtain ⟨b, hb, hs⟩ := exists_append_trimStart s
  have hname : trimStart s = (trimStart s).takeWhile isWord ++ (trimStart s).dropWhile isWord :=
    List.takeWhile_append_dropWhile.symm
  obtain ⟨b', hb', hbehind⟩ := exists_append_trimStart ((trimStart s).dropWhile isWord)
  have hstops := stops_trimStart ((trimStart s).dropWhile isWord)
  generalize trimStart ((trimStart s).dropWhile isWord) = u at h hbehind hstops
  obtain ⟨x, hx, hu, hparameters⟩ := exists_enclosed (enclosed?_eq_some_iff '(' ')') hstops
  generalize orKeep (enclosed? '(' ')' u) u = found at h hu hparameters
  have hstops := stops_trimStart found.2
  obtain ⟨y, hy, hv, hcondition⟩ :=
    exists_enclosed (enclosedSome?_eq_some_iff '\x7b' '\x7d') hstops
  generalize trimStart found.2 = v at h hu hstops hv hcondition
  split at h
  · cases h
  case isFalse hne =>
    cases h
    refine ⟨b, b', x, y, ?_, hb, ⟨⟨hne, fun c hc => List.mem_takeWhile_imp hc⟩, hb'⟩,
      ⟨hx, hparameters⟩, hy, hcondition⟩
    dsimp only
    rw [← hv, ← hu, ← hbehind, ← hname, ← hs]

/-- What is read as a stage has a derivation. -/
theorem exists_stage {q : StageParts} {t : Transform} (h : stageParts? s = some q)
    (ht : stage text q = .ok t) :
    ∃ c : Stage, c.WellFormed ∧ s = c.text ++ q.rest ∧ c.transform = t := by
  obtain ⟨b, b', x, y, hs, hb, hname, ⟨hx, hparameters⟩, hy, hcondition⟩ := exists_stageParts h
  let c : Stage := ⟨b, ⟨q.name, b'⟩, x.map (Spaced.map piecesOf), y⟩
  have hpieces : c.parameters.map (Spaced.map piecesText) = x := by
    cases x with
    | none => rfl
    | some x => exact congrArg some (Spaced.ext (piecesText_piecesOf x.part) rfl)
  have hparts : partsOf c q.rest = q := by
    have h : c.parameters.map (fun p => piecesText p.part) = q.parameters :=
      calc c.parameters.map (fun p => piecesText p.part)
        _ = (c.parameters.map (Spaced.map piecesText)).map Spaced.part :=
          (Option.map_map Spaced.part (Spaced.map piecesText) c.parameters).symm
        _ = q.parameters := by rw [hpieces, hparameters]
    rw [partsOf, h, show c.condition.map Spaced.part = q.condition from hcondition.symm]
  have hsame : ∀ p ∈ c.parameters, piecesOf (piecesText p.part) = p.part := by
    intro p hp
    obtain ⟨z, -, rfl⟩ := Option.map_eq_some_iff.1 hp
    rw [Spaced.map, piecesText_piecesOf]
  rw [← hparts] at ht
  obtain ⟨hallowed, htransform⟩ := (stage_partsOf hsame).1 ht
  refine ⟨c, ⟨hb, hname, fun p hp => ?_, hy⟩, ?_, htransform⟩
  · obtain ⟨z, hz, rfl⟩ := Option.map_eq_some_iff.1 hp
    obtain ⟨hclosing, hblanks⟩ := hx z hz
    refine ⟨⟨piecesOf_ne_nil z.part, fun w hw => ?_⟩, hblanks⟩
    obtain ⟨hcomma, hsub⟩ := mem_piecesOf hw
    exact ⟨hcomma, fun hm => hclosing (hsub hm), hallowed _ hp w hw⟩
  · rw [Stage.text, Stage.tail, hpieces]
    simpa using hs

theorem stage_text (hc : c.WellFormed) (r : List Char) :
    stage text (partsOf c r) = .ok c.transform :=
  (stage_partsOf hc.pieces_eq).2 ⟨hc.allowed, rfl⟩

theorem stages_text_singleton (hc : c.WellFormed) (n : Nat) :
    stages text (n + 1) (stagesText [c]) = .ok [c.transform] := by
  rw [stages, stagesText_cons, stageParts?_text hc (atSeparator_stagesBehind [])]
  dsimp only
  rw [stage_text hc]
  rfl

/-- In front of other stages a stage is read and they are read behind it. -/
theorem stages_text_cons {cs : List Stage} (hc : c.WellFormed) (hcs : cs ≠ []) (n : Nat) :
    stages text (n + 1) (stagesText (c :: cs)) =
      (stages text n (stagesText cs)).map (c.transform :: ·) := by
  rw [stages, stagesText_cons, stageParts?_text hc (atSeparator_stagesBehind cs)]
  dsimp only
  rw [stage_text hc, stagesBehind_eq hcs]
  rfl

/-- The text between the brackets is read exactly if it is made of stages. -/
theorem stages_eq_ok_iff {n : Nat} {ts : List Transform} (hn : s.length < n) :
    stages text n s = .ok ts ↔ ∃ cs, (cs ≠ [] ∧ ∀ c ∈ cs, c.WellFormed) ∧ s = stagesText cs ∧
      cs.map Stage.transform = ts := by
  induction n generalizing s ts with
  | zero => omega
  | succ n ih =>
    constructor
    · intro h
      rw [stages] at h
      split at h
      · cases h
      case h_2 q hq =>
        obtain ⟨t, ht, h⟩ := bind_eq_ok_iff.1 h
        obtain ⟨c, hc, hs, htransform⟩ := exists_stage hq ht
        split at h
        case h_1 hrest =>
          cases h
          rw [hrest, List.append_nil] at hs
          exact ⟨[c], by simpa using hc, by simpa [stagesText] using hs, by simpa using htransform⟩
        case h_2 rest hrest =>
          obtain ⟨us, hus, h⟩ := bind_eq_ok_iff.1 h
          cases h
          have hlength : rest.length < n := by
            have := congrArg List.length hs
            simp [hrest] at this
            omega
          obtain ⟨cs, ⟨hne, hcs⟩, hrest', hmap⟩ := (ih hlength).1 hus
          refine ⟨c :: cs, ⟨by simp, by simpa using ⟨hc, hcs⟩⟩, ?_, by simp [htransform, hmap]⟩
          rw [hs, hrest, hrest', stagesText_cons, stagesBehind_eq hne]
        case h_3 => cases h
    · rintro ⟨cs, ⟨hne, hcs⟩, rfl, rfl⟩
      cases cs with
      | nil => exact absurd rfl hne
      | cons c cs =>
        obtain ⟨hc, hcs⟩ := List.forall_mem_cons.1 hcs
        by_cases hne : cs = []
        · rw [hne, stages_text_singleton hc]
          rfl
        · rw [stagesText_cons, stagesBehind_eq hne, List.length_append, List.length_cons] at hn
          have hrest : stages text n (stagesText cs) = .ok (cs.map Stage.transform) :=
            (ih (by omega)).2 ⟨cs, ⟨hne, hcs⟩, rfl, rfl⟩
          rw [stages_text_cons hc hne, hrest]
          rfl

/-! ## Features -/

/-- The name and the text between the brackets, with the blanks around them. -/
theorem split?_eq_some_iff {name body : List Char} :
    split? s = some (name, body) ↔ ∃ b b' b'',
      s = b ++ (name ++ (b' ++ '[' :: (body ++ ']' :: b''))) ∧
      AllBlank b ∧ (IsName name ∧ AllBlank b') ∧ AllBlank b'' := by
  constructor
  · intro h
    obtain ⟨b, b'', hb, hb'', hs⟩ := exists_append_trim_append s
    have hname : trim s = (trim s).takeWhile isWord ++ (trim s).dropWhile isWord :=
      List.takeWhile_append_dropWhile.symm
    obtain ⟨b', hb', hbehind⟩ := exists_append_trimStart ((trim s).dropWhile isWord)
    rw [split?] at h
    split at h
    · cases h
    case h_2 rest hrest hne =>
      split at h
      case isFalse => cases h
      case isTrue hlast =>
        cases h
        have hrest' : rest.dropLast ++ [']'] = rest :=
          List.dropLast_append_getLast? ']' (by simpa using hlast)
        have hword : ∀ c ∈ (trim s).takeWhile isWord, isWord c = true :=
          fun c hc => List.mem_takeWhile_imp hc
        rw [hrest, ← hrest'] at hbehind
        generalize (trim s).takeWhile isWord = name at hname hne hword
        refine ⟨b, b', b'', ?_, hb, ⟨⟨hne, hword⟩, hb'⟩, hb''⟩
        rw [hs, hname, hbehind]
        simp
    · cases h
  · rintro ⟨b, b', b'', rfl, hb, ⟨hname, hb'⟩, hb''⟩
    have htrim : trim (b ++ (name ++ (b' ++ '[' :: (body ++ ']' :: b'')))) =
        name ++ (b' ++ '[' :: (body ++ [']'])) := by
      have hsplit : name ++ (b' ++ '[' :: (body ++ ']' :: b'')) =
          (name ++ (b' ++ '[' :: (body ++ [']']))) ++ b'' := by simp
      rw [trim_append_of_allBlank hb, hsplit, trim_append_of_allBlank_right hb'']
      exact isTrimmed_of_stops hname.stops_isBlank (by simp [isBlank])
    have hstop : Stops isWord (b' ++ '[' :: (body ++ [']'])) :=
      stops_isWord_append hb' (by simp [isWord])
    have hbehind : trimStart (b' ++ '[' :: (body ++ [']'])) = '[' :: (body ++ [']']) := by
      rw [trimStart_append_of_allBlank hb']
      exact trimStart_of_stops (by simp [isBlank])
    rw [split?, htrim]
    simp only [takeWhile_append_of_stops hname.2 hstop, dropWhile_append_of_stops hname.2 hstop,
      hbehind]
    cases name with
    | nil => exact absurd rfl hname.1
    | cons c name => simp

end Reader

theorem parse_eq_ok_iff {text : String} {f : Feature} :
    parse text = .ok f ↔ ∃ d : Derivation, d.Derives text ∧ d.feature = f := by
  constructor
  · intro h
    rw [parse] at h
    split at h
    · cases h
    case h_2 name body hsplit =>
      split at h
      · cases h
      case h_2 ts hstages =>
        cases h
        obtain ⟨b, b', b'', htext, hb, hname, hb''⟩ := Reader.split?_eq_some_iff.1 hsplit
        obtain ⟨cs, hcs, rfl, rfl⟩ := (Reader.stages_eq_ok_iff (Nat.lt_succ_self _)).1 hstages
        exact ⟨⟨b, ⟨name, b'⟩, cs, b''⟩, ⟨⟨hb, hname, hcs, hb''⟩, htext.symm⟩, rfl⟩
  · rintro ⟨d, ⟨hd, htext⟩, rfl⟩
    have hsplit : Reader.split? text.toList = some (d.name.part, stagesText d.stages) :=
      Reader.split?_eq_some_iff.2
        ⟨d.blanks, d.name.blanks, d.behind, htext.symm, hd.blanks, hd.name, hd.behind⟩
    have hstages : Reader.stages text _ (stagesText d.stages) =
        .ok (d.stages.map Stage.transform) :=
      (Reader.stages_eq_ok_iff (Nat.lt_succ_self _)).2 ⟨d.stages, hd.stages, rfl, rfl⟩
    rw [parse, hsplit]
    simp only [hstages]
    rfl

/-- What is not read is refused as the text of a feature. -/
theorem exists_featureSyntax {text : String} (h : ∀ f, parse text ≠ .ok f) :
    ∃ fault, parse text = .error (.featureSyntax fault) := by
  unfold parse at h ⊢
  split
  case h_1 => exact ⟨_, rfl⟩
  case h_2 name body hsplit =>
    cases hstages : Reader.stages text (body.length + 1) body with
    | error fault => exact ⟨fault, rfl⟩
    | ok ts => exact absurd (by simp [hsplit, hstages]) (h ⟨String.ofList name, ts⟩)

/-- A text is read exactly if it has a derivation. The derivation is its only one, and the feature
that it denotes is the one that is read. Any other text is refused as the text of a feature. -/
theorem parse_derives (text : String) :
    ((∃ f, parse text = .ok f) ↔ ∃ d : Derivation, d.Derives text) ∧
    (∀ d : Derivation, d.Derives text → (∀ e : Derivation, e.Derives text → e = d) ∧
      ∃ f, parse text = .ok f ∧ ∀ g, d.Denotes g ↔ g = f) ∧
    ((¬∃ d : Derivation, d.Derives text) →
      ∃ fault, parse text = .error (.featureSyntax fault)) := by
  refine ⟨⟨?_, ?_⟩, ?_, ?_⟩
  · rintro ⟨f, hf⟩
    obtain ⟨d, hd, -⟩ := parse_eq_ok_iff.1 hf
    exact ⟨d, hd⟩
  · rintro ⟨d, hd⟩
    exact ⟨d.feature, parse_eq_ok_iff.2 ⟨d, hd, rfl⟩⟩
  · intro d hd
    refine ⟨fun e he => Derivation.text_inj he.1 hd.1 (he.2.trans hd.2.symm), d.feature,
      parse_eq_ok_iff.2 ⟨d, hd, rfl⟩, fun g => ?_⟩
    rw [Derivation.denotes_iff, eq_comm]
  · intro h
    refine exists_featureSyntax fun f hf => h ?_
    obtain ⟨d, hd, -⟩ := parse_eq_ok_iff.1 hf
    exact ⟨d, hd⟩

/-- Blank pieces say nothing, and of two values for one name the last counts. -/
theorem parse_derives_repeated :
    let gain : Stage := {
      blanks := [' ']
      name := ⟨"Gain".toList, ['\n']⟩
      parameters := some ⟨[.setting "at ".toList "1".toList, .blank [' '],
        .setting "at".toList " [=2".toList], [' ']⟩
      condition := some ⟨" channels > 1".toList, []⟩ }
    let d : Derivation := {
      blanks := []
      name := ⟨"Mix_2".toList, []⟩
      stages := [gain, ⟨[], ⟨"Energy".toList, [' ']⟩, none, none⟩]
      behind := ['\t'] }
    let text := "Mix_2[ Gain\n(at =1, ,at= [=2) \x7b channels > 1\x7d,Energy ]\t"
    d.Derives text ∧ ∃ f, parse text = .ok f ∧ ∀ g, d.Denotes g ↔ g = f := by
  intro gain d text
  have hd : d.Derives text := ⟨by decide, by cbv⟩
  exact ⟨hd, ((parse_derives text).2.1 d hd).2⟩

end AudioFeatures.Feature
