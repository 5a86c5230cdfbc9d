/-! # Dictionaries

A dictionary lists its entries by ascending name, once each. Two dictionaries with the same entries
are equal, so their listing is also their meaning.
-/

namespace AudioFeatures

variable {α β : Type}

/-- Puts a value under a name into a listing, in place of an older one. -/
def insertEntry (name : String) (value : α) : List (String × α) → List (String × α)
  | [] => [(name, value)]
  | e :: es =>
    if name < e.1 then (name, value) :: e :: es
    else if name = e.1 then (name, value) :: es
    else e :: insertEntry name value es

theorem mem_insertEntry {name : String} {value : α} {es : List (String × α)} {x : String × α}
    (h : x ∈ insertEntry name value es) : x = (name, value) ∨ x ∈ es := by
  induction es with
  | nil => simpa [insertEntry] using h
  | cons e es ih =>
    rw [insertEntry] at h
    split at h
    · simpa using h
    · split at h
      · rcases List.mem_cons.1 h with h | h
        · exact .inl h
        · exact .inr (List.mem_cons_of_mem _ h)
      · rcases List.mem_cons.1 h with h | h
        · exact .inr (h ▸ List.mem_cons_self)
        · exact (ih h).imp id (List.mem_cons_of_mem _)

theorem lt_of_not_lt_of_ne {a b : String} (h : ¬ a < b) (hne : a ≠ b) : b < a :=
  Decidable.byContradiction fun h' =>
    hne (String.le_antisymm (String.not_lt.1 h') (String.not_lt.1 h))

theorem pairwise_insertEntry {name : String} {value : α} {es : List (String × α)}
    (h : es.Pairwise fun x y => x.1 < y.1) :
    (insertEntry name value es).Pairwise fun x y => x.1 < y.1 := by
  induction es with
  | nil => simp [insertEntry]
  | cons e es ih =>
    obtain ⟨he, hes⟩ := List.pairwise_cons.1 h
    rw [insertEntry]
    split
    case isTrue hlt =>
      refine List.pairwise_cons.2 ⟨fun x hx => ?_, h⟩
      rcases List.mem_cons.1 hx with rfl | hx
      · exact hlt
      · exact String.lt_trans hlt (he x hx)
    case isFalse hlt =>
      split
      case isTrue heq => exact List.pairwise_cons.2 ⟨fun x hx => heq ▸ he x hx, hes⟩
      case isFalse hne =>
        refine List.pairwise_cons.2 ⟨fun x hx => ?_, ih hes⟩
        rcases mem_insertEntry hx with rfl | hx
        · exact lt_of_not_lt_of_ne hlt hne
        · exact he x hx

/-- A name behind all others is put at the end. -/
theorem insertEntry_of_forall_lt {name : String} {value : α} {es : List (String × α)}
    (h : ∀ x ∈ es, x.1 < name) : insertEntry name value es = es ++ [(name, value)] := by
  induction es with
  | nil => rfl
  | cons e es ih =>
    have he : e.1 < name := h e List.mem_cons_self
    have hne : name ≠ e.1 := fun heq => String.lt_irrefl name (heq ▸ he)
    rw [insertEntry, if_neg (String.lt_asymm he), if_neg hne,
      ih fun x hx => h x (List.mem_cons_of_mem _ hx), List.cons_append]

structure Dict (α : Type) where
  entries : List (String × α)
  ascending : entries.Pairwise (fun x y => x.1 < y.1) := by simp
  deriving DecidableEq

namespace Dict

instance : EmptyCollection (Dict α) := ⟨⟨[], .nil⟩⟩

instance : Inhabited (Dict α) := ⟨∅⟩

theorem ext {d e : Dict α} (h : d.entries = e.entries) : d = e := by
  cases d; cases e; cases h; rfl

def insert (d : Dict α) (name : String) (value : α) : Dict α :=
  ⟨insertEntry name value d.entries, pairwise_insertEntry d.ascending⟩

/-- The last value given for a name is the one that stays. -/
def ofList (es : List (String × α)) : Dict α :=
  es.foldl (fun d e => d.insert e.1 e.2) ∅

def get? (d : Dict α) (name : String) : Option α :=
  (d.entries.find? fun e => e.1 == name).map (·.2)

def contains (d : Dict α) (name : String) : Bool := d.entries.any fun e => e.1 == name

def names (d : Dict α) : List String := d.entries.map (·.1)

def values (d : Dict α) : List α := d.entries.map (·.2)

/-- The same names with other values. -/
def map (f : α → β) (d : Dict α) : Dict β :=
  ⟨d.entries.map fun e => (e.1, f e.2), List.pairwise_map.2 d.ascending⟩

def size (d : Dict α) : Nat := d.entries.length

def isEmpty (d : Dict α) : Bool := d.entries.isEmpty

@[simp] theorem entries_empty : (∅ : Dict α).entries = [] := rfl

theorem find?_insertEntry (name other : String) (value : α) (es : List (String × α)) :
    ((insertEntry name value es).find? fun e => e.1 == other).map (·.2) =
      if name = other then some value else (es.find? fun e => e.1 == other).map (·.2) := by
  induction es with
  | nil => by_cases h : name = other <;> simp [insertEntry, h]
  | cons e es ih =>
    rw [insertEntry]
    split
    · by_cases h : name = other <;> simp [h]
    · split
      case isTrue heq => by_cases h : name = other <;> simp_all
      case isFalse hne =>
        by_cases he : e.1 = other
        · have : name ≠ other := fun h => hne (h.trans he.symm)
          simp [he, this]
        · simp [he, ih]

/-- Inserting changes the value of one name only. -/
theorem get?_insert (d : Dict α) (name other : String) (value : α) :
    (d.insert name value).get? other = if name = other then some value else d.get? other :=
  find?_insertEntry name other value d.entries

theorem entries_foldl_insert (es : List (String × α)) (d : Dict α)
    (h : (d.entries ++ es).Pairwise fun x y => x.1 < y.1) :
    (es.foldl (fun d e => d.insert e.1 e.2) d).entries = d.entries ++ es := by
  induction es generalizing d with
  | nil => simp
  | cons e es ih =>
    have hd : (d.insert e.1 e.2).entries = d.entries ++ [e] :=
      insertEntry_of_forall_lt fun x hx => (List.pairwise_append.1 h).2.2 x hx e List.mem_cons_self
    rw [List.foldl_cons, ih _ (by rw [hd, List.append_assoc]; exact h), hd, List.append_assoc,
      List.singleton_append]

/-- A dictionary is built from its listing. -/
theorem ofList_entries (d : Dict α) : ofList d.entries = d :=
  ext (entries_foldl_insert d.entries ∅ d.ascending)

@[simp] theorem get?_empty (name : String) : (∅ : Dict α).get? name = none := rfl

end Dict

end AudioFeatures
