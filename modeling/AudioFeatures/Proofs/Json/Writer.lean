import AudioFeatures.Proofs.Json.Reader

/-! # Reading what was written

A value that is made of texts and integers is read from either way of writing it: on one line, and
with a line for every item and member.
-/

namespace AudioFeatures.Json

open Reader Writer

variable {j : Json} {items : List Json} {members : List (String × Json)}

/-- A value whose literals are all texts and integers. -/
inductive Plain : Json → Prop
  | null : Plain null
  | bool (b : Bool) : Plain (bool b)
  | natural (n : Nat) : Plain (number (.natural n))
  | negative (n : Nat) : Plain (number (.negative n))
  | text (s : String) : Plain (text s)
  | array {items : List Json} (h : ∀ j ∈ items, Plain j) : Plain (array items)
  | ofMembers {members : List (String × Json)} (h : ∀ m ∈ members, Plain m.2) :
    Plain (ofMembers members)

theorem Plain.int (n : Int) : Plain (int n) := by
  cases n with
  | ofNat n => exact .natural n
  | negSucc n => exact .negative (n + 1)

theorem Plain.ofOption {α : Type} {f : α → Json} (h : ∀ a, Plain (f a)) (a : Option α) :
    Plain (ofOption f a) := by
  cases a with
  | none => exact .null
  | some a => exact h a

theorem toList_compactItems (items : List Json) :
    (compactItems items).toList = [','].intercalate (items.map fun j => (compact j).toList) := by
  induction items with
  | nil => rfl
  | cons j items ih =>
    cases items with
    | nil => simp [compactItems]
    | cons => simpa [compactItems] using ih

theorem toList_compactMembers (members : List (String × Json)) :
    (compactMembers (members.map fun m => (some m.1, m.2))).toList =
      [','].intercalate (members.map fun m =>
        (Writer.string m.1).toList ++ ':' :: (compact m.2).toList) := by
  induction members with
  | nil => rfl
  | cons m members ih =>
    cases members with
    | nil => simp [compactMembers]
    | cons => simpa [compactMembers] using ih

theorem reads_compact (h : Plain j) : Reads j (compact j).toList := by
  induction h with
  | null => exact .null
  | bool b => cases b <;> exact .bool _
  | natural n => exact .natural n
  | negative n => exact .negative n
  | text s => exact .text s
  | @array items _ ih =>
    have hitems : List.Forall₂ Reads items (items.map fun j => (compact j).toList) := by
      rw [List.forall₂_map_right_iff, List.forall₂_same]
      exact ih
    have htext : (compact (.array items)).toList =
        '[' :: ([','].intercalate (items.map fun j => (compact j).toList) ++ ([] ++ [']'])) := by
      simp [compact, toList_compactItems]
    rw [htext]
    exact .array hitems isBlank_nil
  | @ofMembers members _ ih =>
    have hmembers : List.Forall₂ ReadsMember members (members.map fun m =>
        (Writer.string m.1).toList ++ ':' :: (compact m.2).toList) := by
      rw [List.forall₂_map_right_iff, List.forall₂_same]
      exact fun m hm => ⟨[], _, isBlank_nil, ih m hm, rfl⟩
    have htext : (compact (.ofMembers members)).toList = '\x7b' :: ([','].intercalate
        (members.map fun m => (Writer.string m.1).toList ++ ':' :: (compact m.2).toList) ++
          ([] ++ ['\x7d'])) := by
      simp [compact, Json.ofMembers, toList_compactMembers]
    rw [htext]
    exact .ofMembers hmembers isBlank_nil

/-- A new line and the blanks before an item or a member. -/
def lineStart (depth : Nat) : List Char := '\n' :: (indent depth).toList

theorem isBlank_lineStart (depth : Nat) : IsBlank (lineStart depth) := by
  intro c hc
  simp only [lineStart, indent, String.toList_ofList, List.mem_cons, List.mem_replicate] at hc
  rcases hc with rfl | ⟨-, rfl⟩ <;> rfl

theorem lineStart_prettyItems (depth : Nat) (h : items ≠ []) :
    '\n' :: (prettyItems depth items).toList =
      [','].intercalate (items.map fun j => lineStart depth ++ (prettyAt depth j).toList) := by
  induction items with
  | nil => exact absurd rfl h
  | cons j items ih =>
    cases items with
    | nil => simp [prettyItems, lineStart]
    | cons => simpa [prettyItems, lineStart] using ih

theorem lineStart_prettyMembers (depth : Nat) (h : members ≠ []) :
    '\n' :: (prettyMembers depth (members.map fun m => (some m.1, m.2))).toList =
      [','].intercalate (members.map fun m => lineStart depth ++
        ((Writer.string m.1).toList ++ ':' :: ' ' :: (prettyAt depth m.2).toList)) := by
  induction members with
  | nil => exact absurd rfl h
  | cons m members ih =>
    cases members with
    | nil => simp [prettyMembers, lineStart]
    | cons => simpa [prettyMembers, lineStart] using ih

theorem reads_prettyAt (h : Plain j) (depth : Nat) : Reads j (prettyAt depth j).toList := by
  induction h generalizing depth with
  | null => exact .null
  | bool b => cases b <;> exact .bool _
  | natural n => exact .natural n
  | negative n => exact .negative n
  | text s => exact .text s
  | @array items _ ih =>
    cases items with
    | nil => simpa [prettyAt] using Reads.array .nil isBlank_nil
    | cons j items =>
      have hitems : List.Forall₂ Reads (j :: items) ((j :: items).map fun j =>
          lineStart (depth + 1) ++ (prettyAt (depth + 1) j).toList) := by
        rw [List.forall₂_map_right_iff, List.forall₂_same]
        exact fun j hj => (ih j hj _).blank (isBlank_lineStart _)
      have htext := lineStart_prettyItems (depth + 1) (List.cons_ne_nil j items)
      have hread := Reads.array hitems (isBlank_lineStart depth)
      rw [← htext] at hread
      simpa [prettyAt, lineStart] using hread
  | @ofMembers members _ ih =>
    cases members with
    | nil => simpa [prettyAt, Json.ofMembers] using Reads.ofMembers .nil isBlank_nil
    | cons m members =>
      have hmembers : List.Forall₂ ReadsMember (m :: members) ((m :: members).map fun m =>
          lineStart (depth + 1) ++ ((Writer.string m.1).toList ++
            ':' :: ' ' :: (prettyAt (depth + 1) m.2).toList)) := by
        rw [List.forall₂_map_right_iff, List.forall₂_same]
        have hblank : IsBlank [' '] := by simp [IsBlank, isSpace]
        exact fun m hm => ⟨_, _, isBlank_lineStart _, (ih m hm _).blank hblank, rfl⟩
      have htext := lineStart_prettyMembers (depth + 1) (List.cons_ne_nil m members)
      have hread := Reads.ofMembers hmembers (isBlank_lineStart depth)
      rw [← htext] at hread
      simpa [prettyAt, Json.ofMembers, lineStart] using hread

/-- A value is read from what was written of it, in one way or the other. -/
theorem read?_compact (h : Plain j) : read? (compact j) = some j := (reads_compact h).read?_eq

theorem read?_pretty (h : Plain j) : read? (pretty j) = some j := (reads_prettyAt h 0).read?_eq

end AudioFeatures.Json
