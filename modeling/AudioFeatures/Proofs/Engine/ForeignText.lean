import AudioFeatures.Engine.Request
import AudioFeatures.Proofs.Text.Utf8

/-! # Texts that the engine hands over

A text of the engine is read if it is UTF-8, and a list of texts if all of them are. A string can be
passed to the engine if no zero byte would end it there.
-/

namespace AudioFeatures

open Engine Text

variable {α β : Type}

namespace Text.Utf8

def IsText (bytes : List UInt8) : Prop := ∃ s, bytes = encode s

theorem isText_iff {bytes : List UInt8} : IsText bytes ↔ ∃ s, decode bytes = .ok s :=
  exists_congr fun _ => decode_eq_ok_iff.symm

instance (bytes : List UInt8) : Decidable (IsText bytes) :=
  decidable_of_iff ((decode bytes).isOk = true) <| by
    rw [isText_iff]
    cases decode bytes <;> simp [Except.isOk, Except.toBool]

end Text.Utf8

namespace ForeignText

variable {t : ForeignText} {name : String} {e : Error}

theorem read_eq_ok_iff : t.read = .ok name ↔ t.getD [] = Utf8.encode name := by
  cases t with
  | none =>
    rw [← Utf8.decode_eq_ok_iff]
    simp [read, Utf8.decode_nil]
  | some bytes =>
    rw [Option.getD_some, ← Utf8.decode_eq_ok_iff, read]
    cases Utf8.decode bytes <;> simp [Except.mapError]

theorem exists_fault_of_read_eq_error (h : t.read = .error e) :
    ∃ fault, e = .invalidString (.notUtf8 fault) := by
  cases t with
  | none => cases h
  | some bytes =>
    rw [read] at h
    cases hdecode : Utf8.decode bytes with
    | ok s =>
      rw [hdecode] at h
      cases h
    | error fault =>
      rw [hdecode] at h
      cases h
      exact ⟨fault, rfl⟩

/-! ## Strings for the engine -/

/-- A text cannot be passed to the engine if it holds the character that would end it there. -/
theorem exists_check_eq_error_iff : (∃ e, check name = .error e) ↔ '\x00' ∈ name.toList := by
  rw [check, checkBytes, ← Utf8.zero_mem_encode_iff, ← List.contains_iff_mem]
  cases (Utf8.encode name).contains 0 <;> simp [Except.map]

theorem check_eq_ok (h : 0 ∉ Utf8.encode name) : check name = .ok name := by
  rw [check, checkBytes, if_neg (by simpa using h)]
  rfl

/-! ## Lists of texts -/

variable {list : Option (List ForeignText)} {length : Int32} {names : List String}

/-- The bytes of the texts that a list is said to have. -/
def texts (list : Option (List ForeignText)) (length : Int32) : List Bytes :=
  ((list.getD []).take (lengthOf length)).map fun t => t.getD []

/-- A list has no fewer texts than it is said to have, so that a null pointer has none, and each of
them ends at its first zero byte. -/
def IsWhole (list : Option (List ForeignText)) (length : Int32) : Prop :=
  lengthOf length ≤ (list.getD []).length ∧ ∀ t ∈ texts list length, 0 ∉ t

instance : Decidable (IsWhole list length) :=
  inferInstanceAs (Decidable (lengthOf length ≤ (list.getD []).length ∧
    ∀ t ∈ texts list length, 0 ∉ t))

/-- A list has these names, one for each text that it is said to have. -/
def Tells (list : Option (List ForeignText)) (length : Int32) (names : List String) : Prop :=
  names.length = lengthOf length ∧ texts list length = names.map Utf8.encode

theorem Tells.check (h : Tells list length names) (hwhole : IsWhole list length)
    (hname : name ∈ names) : check name = .ok name :=
  check_eq_ok (hwhole.2 _ (h.2 ▸ List.mem_map_of_mem hname))

/-! ## Reading -/

/-- A computation that reads texts has a value of a kind if they all are UTF-8, and fails for one of
them if they are not. -/
def Reads (ts : List Bytes) (p : α → Prop) (x : Except Error α) : Prop :=
  (∃ a, x = .ok a ∧ p a ∧ ∀ t ∈ ts, Utf8.IsText t) ∨
    ∃ fault, x = .error (.invalidString (.notUtf8 fault)) ∧ ∃ t ∈ ts, ¬Utf8.IsText t

namespace Reads

variable {ts us : List Bytes} {p p' : α → Prop} {q : β → Prop} {x : Except Error α}

theorem pure {a : α} (h : p a) : Reads [] p (Pure.pure a) := .inl ⟨a, rfl, h, by simp⟩

theorem bind {g : α → Except Error β} (h : Reads ts p x) (hg : ∀ a, p a → Reads us q (g a)) :
    Reads (ts ++ us) q (x >>= g) := by
  rcases h with ⟨a, rfl, ha, hts⟩ | ⟨fault, rfl, t, ht, hbad⟩
  · rcases hg a ha with ⟨b, hb, hq, hus⟩ | ⟨fault, hb, t, ht, hbad⟩
    · exact .inl ⟨b, hb, hq, List.forall_mem_append.2 ⟨hts, hus⟩⟩
    · exact .inr ⟨fault, hb, t, List.mem_append_right _ ht, hbad⟩
  · exact .inr ⟨fault, rfl, t, List.mem_append_left _ ht, hbad⟩

theorem bind_pure {g : α → β} (h : Reads ts p x) (hg : ∀ a, p a → q (g a)) :
    Reads ts q (x >>= fun a => Pure.pure (g a)) := by
  rw [← List.append_nil ts]
  exact h.bind fun a ha => pure (hg a ha)

theorem imp (h : Reads ts p x) (hp : ∀ a, p a → p' a) : Reads ts p' x :=
  h.imp_left fun ⟨a, hx, ha, hts⟩ => ⟨a, hx, hp a ha, hts⟩

end Reads

theorem reads_read (t : ForeignText) :
    Reads [t.getD []] (fun name => t.getD [] = Utf8.encode name) t.read := by
  cases h : t.read with
  | ok name =>
    have hname := read_eq_ok_iff.1 h
    exact .inl ⟨name, rfl, hname, List.forall_mem_singleton.2 ⟨name, hname⟩⟩
  | error e =>
    obtain ⟨fault, rfl⟩ := exists_fault_of_read_eq_error h
    refine .inr ⟨fault, rfl, _, List.mem_singleton_self _, fun ⟨name, hname⟩ => ?_⟩
    cases (read_eq_ok_iff.2 hname).symm.trans h

theorem reads_mapM (ts : List ForeignText) :
    Reads (ts.map fun t => t.getD [])
      (fun names => (ts.map fun t => t.getD []) = names.map Utf8.encode) (ts.mapM read) := by
  induction ts with
  | nil => exact .pure rfl
  | cons t ts ih =>
    rw [List.mapM_cons, List.map_cons, ← List.singleton_append]
    refine (reads_read t).bind fun name hname => ih.bind_pure fun names hnames => ?_
    rw [hname, hnames]
    rfl

theorem reads_readList (h : IsWhole list length) :
    Reads (texts list length) (Tells list length) (readList list (lengthOf length)) := by
  have hread : readList list (lengthOf length) =
      ((list.getD []).take (lengthOf length)).mapM read := by
    cases list with
    | none => simp [readList, pure, Except.pure]
    | some ts => rfl
  rw [hread]
  refine (reads_mapM _).imp fun names hnames => ⟨?_, hnames⟩
  have hlength := congrArg List.length hnames
  rw [List.length_map, List.length_map, List.length_take, Nat.min_eq_left h.1] at hlength
  exact hlength.symm

end ForeignText

end AudioFeatures
