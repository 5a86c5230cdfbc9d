import AudioFeatures.Proofs.Dict
import AudioFeatures.Proofs.Feature.WellFormed

/-! # The grammar of features

A derivation keeps all of a feature's text, every part together with the blanks around it. What it
denotes is said without the reader, and a text has at most one derivation.
-/

namespace AudioFeatures.Feature

open Text

namespace Grammar

/-- A part of a text with the blanks behind it. -/
@[ext]
structure Spaced (α : Type) where
  part : α
  blanks : List Char

/-- What stands between the commas of a parameter text. -/
inductive Piece where
  | blank (s : List Char)
  | setting (name value : List Char)

@[ext]
structure Stage where
  blanks : List Char
  name : Spaced (List Char)
  parameters : Option (Spaced (List Piece))
  condition : Option (Spaced (List Char))

@[ext]
structure Derivation where
  blanks : List Char
  name : Spaced (List Char)
  stages : List Stage
  behind : List Char

/-! ## The text of a derivation -/

def Piece.text : Piece → List Char
  | .blank s => s
  | .setting name value => name ++ '=' :: value

/-- Pieces as they are written between parentheses. -/
def piecesText (ps : List Piece) : List Char := [','].intercalate (ps.map Piece.text)

def Spaced.map {α β : Type} (f : α → β) (s : Spaced α) : Spaced β := ⟨f s.part, s.blanks⟩

/-- A part between delimiters, or nothing. -/
def enclosed (opening closing : Char) : Option (Spaced (List Char)) → List Char
  | none => []
  | some s => opening :: (s.part ++ closing :: s.blanks)

/-- What follows the name of a stage. -/
def Stage.tail (s : Stage) : List Char :=
  enclosed '(' ')' (s.parameters.map (Spaced.map piecesText)) ++ enclosed '\x7b' '\x7d' s.condition

def Stage.text (s : Stage) : List Char := s.blanks ++ (s.name.part ++ (s.name.blanks ++ s.tail))

/-- What stands between the brackets. -/
def stagesText (ss : List Stage) : List Char := [','].intercalate (ss.map Stage.text)

def Derivation.text (d : Derivation) : List Char :=
  d.blanks ++ (d.name.part ++ (d.name.blanks ++ '[' :: (stagesText d.stages ++ ']' :: d.behind)))

/-! ## The rules -/

/-- A piece is blank, or has a name that is not blank in front of its first equals sign. -/
def Piece.Allowed : Piece → Prop
  | .blank s => AllBlank s
  | .setting name _ => '=' ∉ name ∧ ¬AllBlank name

instance (p : Piece) : Decidable p.Allowed :=
  match p with
  | .blank s => inferInstanceAs (Decidable (AllBlank s))
  | .setting name _ => inferInstanceAs (Decidable ('=' ∉ name ∧ ¬AllBlank name))

/-- The piece also holds nothing that would end it. -/
structure Piece.WellFormed (p : Piece) : Prop where
  comma : ',' ∉ p.text
  closing : ')' ∉ p.text
  allowed : p.Allowed

instance (p : Piece) : Decidable p.WellFormed :=
  decidable_of_iff (',' ∉ p.text ∧ ')' ∉ p.text ∧ p.Allowed)
    ⟨fun ⟨h, k, l⟩ => ⟨h, k, l⟩, fun ⟨h, k, l⟩ => ⟨h, k, l⟩⟩

structure Stage.WellFormed (s : Stage) : Prop where
  blanks : AllBlank s.blanks
  name : IsName s.name.part ∧ AllBlank s.name.blanks
  parameters : ∀ p ∈ s.parameters,
    (p.part ≠ [] ∧ ∀ q ∈ p.part, q.WellFormed) ∧ AllBlank p.blanks
  condition : ∀ c ∈ s.condition, (c.part ≠ [] ∧ '\x7d' ∉ c.part) ∧ AllBlank c.blanks

instance (s : Stage) : Decidable s.WellFormed :=
  decidable_of_iff (AllBlank s.blanks ∧ (IsName s.name.part ∧ AllBlank s.name.blanks) ∧
      (∀ p ∈ s.parameters, (p.part ≠ [] ∧ ∀ q ∈ p.part, q.WellFormed) ∧ AllBlank p.blanks) ∧
      ∀ c ∈ s.condition, (c.part ≠ [] ∧ '\x7d' ∉ c.part) ∧ AllBlank c.blanks)
    ⟨fun ⟨h, k, l, m⟩ => ⟨h, k, l, m⟩, fun ⟨h, k, l, m⟩ => ⟨h, k, l, m⟩⟩

structure Derivation.WellFormed (d : Derivation) : Prop where
  blanks : AllBlank d.blanks
  name : IsName d.name.part ∧ AllBlank d.name.blanks
  stages : d.stages ≠ [] ∧ ∀ s ∈ d.stages, s.WellFormed
  behind : AllBlank d.behind

instance (d : Derivation) : Decidable d.WellFormed :=
  decidable_of_iff (AllBlank d.blanks ∧ (IsName d.name.part ∧ AllBlank d.name.blanks) ∧
      (d.stages ≠ [] ∧ ∀ s ∈ d.stages, s.WellFormed) ∧ AllBlank d.behind)
    ⟨fun ⟨h, k, l, m⟩ => ⟨h, k, l, m⟩, fun ⟨h, k, l, m⟩ => ⟨h, k, l, m⟩⟩

/-- The derivation follows the rules and has the text. -/
def Derivation.Derives (d : Derivation) (text : String) : Prop :=
  d.WellFormed ∧ d.text = text.toList

instance (d : Derivation) (text : String) : Decidable (d.Derives text) :=
  inferInstanceAs (Decidable (_ ∧ _))

/-! ## What a derivation denotes -/

def Piece.setting? : Piece → Option (String × String)
  | .blank _ => none
  | .setting name value => some (String.ofList (trim name), String.ofList (trim value))

/-- The settings of a stage in the order of the text. -/
def Stage.settings (s : Stage) : List (String × String) :=
  s.parameters.elim [] fun p => p.part.filterMap Piece.setting?

def Stage.condition? (s : Stage) : Option String :=
  s.condition.map fun c => String.ofList (trim c.part)

/-- The stage as it is without a catalog. -/
structure Stage.Denotes (s : Stage) (t : Transform) : Prop where
  name : t.name = String.ofList s.name.part
  /-- Of the values for one name the last counts. -/
  parameters : ∀ name, t.parameters.get? name = s.settings.reverse.lookup name
  condition : t.condition = s.condition?
  unresolved : t.unresolved = t

structure Derivation.Denotes (d : Derivation) (f : Feature) : Prop where
  name : f.name = String.ofList d.name.part
  stages : List.Forall₂ Stage.Denotes d.stages f.stages

def Stage.transform (s : Stage) : Transform where
  name := String.ofList s.name.part
  parameters := Dict.ofList s.settings
  condition := s.condition?

def Derivation.feature (d : Derivation) : Feature :=
  ⟨String.ofList d.name.part, d.stages.map Stage.transform⟩

theorem Stage.denotes_iff {s : Stage} {t : Transform} : s.Denotes t ↔ s.transform = t := by
  constructor
  · rintro ⟨hname, hparameters, hcondition, hunresolved⟩
    have hdict : t.parameters = Dict.ofList s.settings :=
      Dict.ext_get? fun name => (hparameters name).trans (Dict.get?_ofList _ _).symm
    rw [← hunresolved, Transform.unresolved, hname, hdict, hcondition]
    rfl
  · rintro rfl
    exact ⟨rfl, Dict.get?_ofList _, rfl, rfl⟩

/-- A derivation denotes one feature. -/
theorem Derivation.denotes_iff {d : Derivation} {f : Feature} : d.Denotes f ↔ d.feature = f := by
  have hstages (ts : List Transform) :
      List.Forall₂ Stage.Denotes d.stages ts ↔ d.stages.map Stage.transform = ts := by
    have h : Stage.Denotes = fun s t => s.transform = t :=
      funext fun s => funext fun t => propext Stage.denotes_iff
    rw [h, ← List.forall₂_map_left_iff, List.forall₂_eq_eq_eq]
  constructor
  · rintro ⟨hname, h⟩
    cases f
    exact congrArg₂ Feature.mk hname.symm ((hstages _).1 h)
  · rintro rfl
    exact ⟨rfl, (hstages _).2 rfl⟩

/-! ## A text has at most one derivation -/

theorem not_mem_intercalate {c : Char} {sep : List Char} (hsep : c ∉ sep) {ps : List (List Char)}
    (h : ∀ p ∈ ps, c ∉ p) : c ∉ sep.intercalate ps := by
  induction ps with
  | nil => simp
  | cons p ps ih =>
    have ih := ih fun q hq => h q (List.mem_cons_of_mem _ hq)
    cases ps with
    | nil => simpa using h p List.mem_cons_self
    | cons q qs =>
      rw [List.intercalate_cons_cons]
      simp only [List.mem_append, not_or]
      exact ⟨⟨h p List.mem_cons_self, hsep⟩, ih⟩

/-- A text that ends or goes on with a comma. -/
def AtSeparator (r : List Char) : Prop := ∀ c ∈ r.head?, c = ','

theorem AtSeparator.stops {r : List Char} {q : Char → Bool} (hr : AtSeparator r)
    (hq : q ',' = false) : Stops q r :=
  fun c hc => hr c hc ▸ hq

section Enclosed

variable {opening closing : Char} {x y : Option (Spaced (List Char))} {t u : List Char}

/-- The part ends at the closing delimiter. -/
def Closed (closing : Char) (x : Option (Spaced (List Char))) : Prop :=
  ∀ s ∈ x, closing ∉ s.part ∧ AllBlank s.blanks

theorem stops_enclosed {q : Char → Bool} (hq : q opening = false) (ht : Stops q t) :
    Stops q (enclosed opening closing x ++ t) := by
  cases x with
  | none => exact ht
  | some s => simpa [enclosed] using hq

/-- Where neither a blank nor the opening delimiter follows, what is enclosed is determined. -/
theorem enclosed_append_inj (hx : Closed closing x) (hy : Closed closing y)
    (ht : Stops (fun c => isBlank c || c == opening) t)
    (hu : Stops (fun c => isBlank c || c == opening) u)
    (h : enclosed opening closing x ++ t = enclosed opening closing y ++ u) : x = y ∧ t = u := by
  have hopening {t s : List Char} (ht : Stops (fun c => isBlank c || c == opening) t) :
      t ≠ opening :: s := by
    rintro rfl
    simp at ht
  have hblank {t : List Char} (ht : Stops (fun c => isBlank c || c == opening) t) :
      Stops isBlank t :=
    fun c hc => (Bool.or_eq_false_iff.1 (ht c hc)).1
  match x, y with
  | none, none => exact ⟨rfl, h⟩
  | none, some r => exact absurd h (hopening ht)
  | some s, none => exact absurd h.symm (hopening hu)
  | some ⟨p, b⟩, some ⟨p', b'⟩ =>
    obtain ⟨hp, hb⟩ : closing ∉ p ∧ AllBlank b := hx _ rfl
    obtain ⟨hp', hb'⟩ : closing ∉ p' ∧ AllBlank b' := hy _ rfl
    simp only [enclosed, List.cons_append, List.append_assoc, List.cons.injEq, true_and] at h
    have hp_eq : p = p' := by
      rw [← takeWhile_ne_append hp, h, takeWhile_ne_append hp']
    have hbt : b ++ t = b' ++ u := by simpa [hp_eq] using h
    obtain ⟨hb_eq, ht_eq⟩ := append_inj_of_stops hb hb' (hblank ht) (hblank hu) hbt
    exact ⟨by rw [hp_eq, hb_eq], ht_eq⟩

end Enclosed

/-- The piece that a text without a comma is. -/
def Piece.ofText (s : List Char) : Piece :=
  if '=' ∈ s then .setting (s.takeWhile (· != '=')) ((s.dropWhile (· != '=')).drop 1) else .blank s

theorem Piece.text_ofText (s : List Char) : (ofText s).text = s := by
  rw [ofText]
  split
  case isFalse => rfl
  case isTrue h =>
    obtain ⟨name, value, rfl, hname⟩ := List.eq_append_cons_of_mem h
    rw [takeWhile_ne_append hname, dropWhile_ne_append hname]
    rfl

theorem Piece.ofText_text {p : Piece} (h : p.Allowed) : ofText p.text = p := by
  cases p with
  | blank s => exact if_neg (AllBlank.not_mem h (by decide))
  | setting name value =>
    have hmem : '=' ∈ name ++ '=' :: value := List.mem_append_right _ List.mem_cons_self
    rw [text, ofText, if_pos hmem, takeWhile_ne_append h.1, dropWhile_ne_append h.1]
    rfl

/-- The pieces that a text holds between commas. -/
def piecesOf (s : List Char) : List Piece := (s.splitOn ',').map Piece.ofText

theorem piecesOf_ne_nil (s : List Char) : piecesOf s ≠ [] := by
  simp [piecesOf, List.splitOn_ne_nil]

theorem piecesText_piecesOf (s : List Char) : piecesText (piecesOf s) = s := by
  simp [piecesText, piecesOf, Function.comp_def, Piece.text_ofText]

theorem piecesOf_piecesText {ps : List Piece} (hps : ps ≠ []) (h : ∀ p ∈ ps, p.WellFormed) :
    piecesOf (piecesText ps) = ps := by
  have hcomma : ∀ s ∈ ps.map Piece.text, ',' ∉ s := by simpa using fun p hp => (h p hp).comma
  rw [piecesOf, piecesText, List.splitOn_intercalate ',' hcomma (by simpa using hps), List.map_map]
  exact (List.map_congr_left fun p hp => Piece.ofText_text (h p hp).allowed).trans (List.map_id _)

namespace Stage

variable {s t : Stage} {r r' : List Char}

theorem WellFormed.closed_parameters (h : s.WellFormed) :
    Closed ')' (s.parameters.map (Spaced.map piecesText)) := by
  intro x hx
  obtain ⟨p, hp, rfl⟩ := Option.map_eq_some_iff.1 hx
  obtain ⟨⟨-, hpieces⟩, hblanks⟩ := h.parameters p hp
  have hclosing : ∀ q ∈ p.part.map Piece.text, ')' ∉ q := by
    simpa using fun q hq => (hpieces q hq).closing
  exact ⟨not_mem_intercalate (by decide) hclosing, hblanks⟩

theorem WellFormed.pieces_eq (h : s.WellFormed) :
    ∀ p ∈ s.parameters, piecesOf (piecesText p.part) = p.part := by
  intro p hp
  obtain ⟨⟨hne, hpieces⟩, -⟩ := h.parameters p hp
  exact piecesOf_piecesText hne hpieces

theorem WellFormed.parameters_eq (h : s.WellFormed) :
    (s.parameters.map (Spaced.map piecesText)).map (Spaced.map piecesOf) = s.parameters := by
  cases hp : s.parameters with
  | none => rfl
  | some p => exact congrArg some (Spaced.ext (h.pieces_eq p hp) rfl)

theorem WellFormed.allowed (h : s.WellFormed) : ∀ p ∈ s.parameters, ∀ x ∈ p.part, x.Allowed :=
  fun p hp x hx => ((h.parameters p hp).1.2 x hx).allowed

theorem WellFormed.closed_condition (h : s.WellFormed) : Closed '\x7d' s.condition :=
  fun c hc => ⟨(h.condition c hc).1.2, (h.condition c hc).2⟩

theorem stops_tail {q : Char → Bool} (hparameters : q '(' = false) (hcondition : q '\x7b' = false)
    (hr : AtSeparator r) (hq : q ',' = false) : Stops q (s.tail ++ r) := by
  rw [tail, List.append_assoc]
  exact stops_enclosed hparameters (stops_enclosed hcondition (hr.stops hq))

/-- Up to a separator a stage is determined by its text. -/
theorem text_append_inj (hs : s.WellFormed) (ht : t.WellFormed) (hr : AtSeparator r)
    (hr' : AtSeparator r') (h : s.text ++ r = t.text ++ r') : s = t ∧ r = r' := by
  simp only [text, List.append_assoc] at h
  obtain ⟨hblanks, h⟩ := append_inj_of_stops hs.blanks ht.blanks hs.name.1.stops_isBlank
    ht.name.1.stops_isBlank h
  have hword {s : Stage} {r : List Char} (hs : s.WellFormed) (hr : AtSeparator r) :
      Stops isWord (s.name.blanks ++ (s.tail ++ r)) :=
    stops_isWord_append hs.name.2 (stops_tail (by decide) (by decide) hr (by decide))
  obtain ⟨hname, h⟩ := append_inj_of_stops hs.name.1.2 ht.name.1.2 (hword hs hr) (hword ht hr') h
  obtain ⟨hbehind, h⟩ := append_inj_of_stops hs.name.2 ht.name.2
    (stops_tail rfl rfl hr rfl) (stops_tail rfl rfl hr' rfl) h
  rw [tail, tail, List.append_assoc, List.append_assoc] at h
  obtain ⟨hparameters, h⟩ := enclosed_append_inj hs.closed_parameters ht.closed_parameters
    (stops_enclosed rfl (hr.stops rfl)) (stops_enclosed rfl (hr'.stops rfl)) h
  obtain ⟨hcondition, hrest⟩ := enclosed_append_inj hs.closed_condition ht.closed_condition
    (hr.stops rfl) (hr'.stops rfl) h
  have hparameters : s.parameters = t.parameters := by
    rw [← hs.parameters_eq, hparameters, ht.parameters_eq]
  exact ⟨Stage.ext hblanks (Spaced.ext hname hbehind) hparameters hcondition, hrest⟩

end Stage

/-- What follows the first of several stages. -/
def stagesBehind (ss : List Stage) : List Char := ss.flatMap fun s => ',' :: s.text

theorem stagesText_cons (s : Stage) (ss : List Stage) :
    stagesText (s :: ss) = s.text ++ stagesBehind ss := by
  induction ss generalizing s with
  | nil => simp [stagesText, stagesBehind]
  | cons t ss ih =>
    have h := ih t
    simp only [stagesText, stagesBehind, List.map_cons, List.intercalate_cons_cons,
      List.flatMap_cons] at h ⊢
    simp [h]

theorem stagesBehind_eq {ss : List Stage} (h : ss ≠ []) :
    stagesBehind ss = ',' :: stagesText ss := by
  cases ss with
  | nil => exact absurd rfl h
  | cons s ss => simp [stagesText_cons, stagesBehind]

theorem atSeparator_stagesBehind (ss : List Stage) : AtSeparator (stagesBehind ss) := by
  cases ss <;> simp [stagesBehind, AtSeparator]

theorem stagesText_inj {ss ts : List Stage} (hss : ss ≠ []) (hts : ts ≠ [])
    (hs : ∀ s ∈ ss, s.WellFormed) (ht : ∀ t ∈ ts, t.WellFormed)
    (h : stagesText ss = stagesText ts) : ss = ts := by
  induction ss generalizing ts with
  | nil => exact absurd rfl hss
  | cons s ss ih =>
    cases ts with
    | nil => exact absurd rfl hts
    | cons t ts =>
      rw [stagesText_cons, stagesText_cons] at h
      obtain ⟨rfl, hbehind⟩ := Stage.text_append_inj (hs s List.mem_cons_self)
        (ht t List.mem_cons_self) (atSeparator_stagesBehind ss) (atSeparator_stagesBehind ts) h
      congr 1
      match ss, ts with
      | [], [] => rfl
      | [], t :: ts => simp [stagesBehind] at hbehind
      | s :: ss, [] => simp [stagesBehind] at hbehind
      | s :: ss, t :: ts =>
        rw [stagesBehind_eq (by simp), stagesBehind_eq (by simp)] at hbehind
        exact ih (by simp) (by simp) (fun x hx => hs x (List.mem_cons_of_mem _ hx))
          (fun x hx => ht x (List.mem_cons_of_mem _ hx)) (List.cons.inj hbehind).2

/-- A text has at most one derivation. -/
theorem Derivation.text_inj {d e : Derivation} (hd : d.WellFormed) (he : e.WellFormed)
    (h : d.text = e.text) : d = e := by
  obtain ⟨hblanks, h⟩ := append_inj_of_stops hd.blanks he.blanks hd.name.1.stops_isBlank
    he.name.1.stops_isBlank h
  have hword {b t : List Char} (hb : AllBlank b) : Stops isWord (b ++ '[' :: t) :=
    stops_isWord_append hb (by simp [isWord])
  obtain ⟨hname, h⟩ := append_inj_of_stops hd.name.1.2 he.name.1.2 (hword hd.name.2)
    (hword he.name.2) h
  obtain ⟨hbehindName, h⟩ := append_inj_of_stops hd.name.2 he.name.2 (by simp [isBlank])
    (by simp [isBlank]) h
  -- the last bracket is found from the end of the text
  have hreverse : d.behind.reverse ++ ']' :: (stagesText d.stages).reverse =
      e.behind.reverse ++ ']' :: (stagesText e.stages).reverse := by
    simpa using congrArg List.reverse (List.cons.inj h).2
  have hbehind {d : Derivation} (hd : d.WellFormed) : AllBlank d.behind.reverse := by
    simpa [AllBlank] using hd.behind
  obtain ⟨hbehind, hstages⟩ := append_inj_of_stops (hbehind hd) (hbehind he) (by simp [isBlank])
    (by simp [isBlank]) hreverse
  have hstages := stagesText_inj hd.stages.1 he.stages.1 hd.stages.2 he.stages.2
    (List.reverse_injective (List.cons.inj hstages).2)
  exact Derivation.ext hblanks (Spaced.ext hname hbehindName) hstages
    (List.reverse_injective hbehind)

end Grammar

end AudioFeatures.Feature
