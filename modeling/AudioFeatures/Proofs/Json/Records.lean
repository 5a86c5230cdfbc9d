import AudioFeatures.Proofs.Json.Writer

/-! # Records

A record is written as an object with a member for each field. Fields may be left out where they
have the values that stand for them then; the reader takes every field for what it was.
-/

namespace AudioFeatures.Json

variable {α β : Type}

/-- A field of a record, and whether it has the value that stands for it where it is left out. -/
structure Field where
  name : String
  value : Json
  isDefault : Bool := false

namespace Field

/-- Whether the field is left out, which only a field with its default value is. -/
def isOmitted (leaveOut : String → Bool) (f : Field) : Bool := f.isDefault && leaveOut f.name

/-- What is found of the field. -/
def found? (leaveOut : String → Bool) (f : Field) : Option Json :=
  if f.isOmitted leaveOut then none else some f.value

end Field

/-- The record without the fields that are left out. -/
def ofFields (leaveOut : String → Bool) (fs : List Field) : Json :=
  .ofMembers ((fs.filter fun f => !f.isOmitted leaveOut).map fun f => (f.name, f.value))

/-- With nothing left out every field has a member. -/
@[simp] theorem ofFields_nothing (fs : List Field) :
    ofFields (fun _ => false) fs = .ofMembers (fs.map fun f => (f.name, f.value)) := by
  simp [ofFields, Field.isOmitted]

theorem mapM_of_forall_eq_some {l : List α} {f : α → Option β} {g : α → β}
    (h : ∀ a ∈ l, f a = some (g a)) : l.mapM f = some (l.map g) := by
  induction l with
  | nil => rfl
  | cons a l ih =>
    rw [List.mapM_cons, h a (by simp), ih fun b hb => h b (by simp [hb])]
    rfl

theorem record?_ofMembers (fields : List String) (ms : List (String × Json)) :
    record? fields (.ofMembers ms) = fields.mapM fun field =>
      match ms.filter fun m => m.1 == field with
      | [] => some none
      | [m] => some (some m.2)
      | _ => none := by
  have hnames : (ms.map fun m => (some m.1, m.2)).mapM
      (fun m : Option String × Json => do return (← m.1, m.2)) = some ms := by
    rw [List.mapM_map]
    exact (mapM_of_forall_eq_some fun m _ => rfl).trans (congrArg some (List.map_id ms))
  rw [ofMembers, record?, hnames]
  rfl

variable {leaveOut : String → Bool} {fs : List Field} {f : Field}

theorem filter_name_eq (h : (fs.map (·.name)).Nodup) (hf : f ∈ fs) :
    (fs.filter fun g => g.name == f.name) = [f] := by
  induction fs with
  | nil => cases hf
  | cons g fs ih =>
    rw [List.map_cons, List.nodup_cons] at h
    obtain rfl | hf := List.mem_cons.1 hf
    · have hothers : ∀ g ∈ fs, ¬(g.name == f.name) = true := fun g hg he =>
        h.1 (List.mem_map.2 ⟨g, hg, by simpa using he⟩)
      rw [List.filter_cons_of_pos (by simp), List.filter_eq_nil_iff.2 hothers]
    · have hne : (g.name == f.name) = false := by
        refine beq_false_of_ne fun he => h.1 ?_
        rw [he]
        exact List.mem_map_of_mem hf
      rw [List.filter_cons, hne, if_neg (by simp), ih h.2 hf]

theorem plain_ofFields (h : ∀ f ∈ fs, Plain f.value) : Plain (ofFields leaveOut fs) := by
  refine .ofMembers fun m hm => ?_
  obtain ⟨f, hf, rfl⟩ := List.mem_map.1 hm
  exact h f (List.mem_of_mem_filter hf)

/-- The fields are found in their order. -/
theorem record?_ofFields (h : (fs.map (·.name)).Nodup) :
    record? (fs.map (·.name)) (ofFields leaveOut fs) = some (fs.map (·.found? leaveOut)) := by
  rw [ofFields, record?_ofMembers, List.mapM_map]
  refine mapM_of_forall_eq_some fun f hf => ?_
  have hmember : (((fs.filter fun f => !f.isOmitted leaveOut).map fun f =>
      (f.name, f.value)).filter fun m => m.1 == f.name) =
      if f.isOmitted leaveOut then [] else [(f.name, f.value)] := by
    have hone : fs.filter ((fun m : String × Json => m.1 == f.name) ∘ fun f =>
        (f.name, f.value)) = [f] := filter_name_eq h hf
    rw [List.filter_map, List.filter_comm, hone]
    cases hf : f.isOmitted leaveOut <;> simp [hf]
  simp only [Function.comp_apply, hmember, Field.found?]
  cases f.isOmitted leaveOut <;> rfl

section

variable {a : α} {read : Json → Option α} {name : String} {j : Json}

/-- A field that was left out has its default value. -/
theorem withDefault_found? {default : α} {isDefault : Bool} (hread : read j = some a)
    (hdefault : isDefault = true → a = default) :
    withDefault default read (Field.found? leaveOut ⟨name, j, isDefault⟩) = some a := by
  rw [Field.found?, Field.isOmitted]
  split
  case isTrue h =>
    rw [hdefault (Bool.and_eq_true_iff.1 h).1]
    rfl
  case isFalse => exact hread

theorem required_found? (hread : read j = some a) :
    required read (Field.found? leaveOut ⟨name, j, false⟩) = some a := hread

end

/-! ## Values of fields -/

@[simp] theorem toText?_text (s : String) : toText? (text s) = some s := rfl

theorem toIntIn?_eq {j : Json} {low high n : Int} (h : j.toInt? = some n)
    (hn : low ≤ n ∧ n < high) : j.toIntIn? low high = some n := by
  rw [toIntIn?, h]
  exact if_pos hn

@[simp] theorem toUInt64?_nat (n : UInt64) : toUInt64? (nat n.toNat) = some n := by
  have hlt := n.toNat_lt
  rw [toUInt64?, toIntIn?_eq (n := n.toNat) rfl (by omega)]
  simp

@[simp] theorem toUInt32?_nat (n : UInt32) : toUInt32? (nat n.toNat) = some n := by
  have hlt := n.toNat_lt
  rw [toUInt32?, toIntIn?_eq (n := n.toNat) rfl (by omega)]
  simp

@[simp] theorem toInt32?_int (n : Int32) : toInt32? (int n.toInt) = some n := by
  have hle := n.le_toInt
  have hlt := n.toInt_lt
  have hread : (int n.toInt).toInt? = some n.toInt := Number.toInt?_ofInt n.toInt
  rw [toInt32?, toIntIn?_eq hread (by omega)]
  simp

/-- Nothing is written as `null`, which stands for no value. -/
theorem toOption?_ofOption {write : α → Json} {read : Json → Option α}
    (h : ∀ a, read (write a) = some a) (hnull : read null = none) (a : Option α) :
    toOption? read (ofOption write a) = some a := by
  cases a with
  | none => rfl
  | some a =>
    have hread := h a
    rw [ofOption]
    unfold toOption?
    split
    case h_1 hw =>
      rw [hw, hnull] at hread
      cases hread
    case h_2 =>
      rw [hread]
      rfl

end AudioFeatures.Json
