import AudioFeatures.Decoded.Basic
import AudioFeatures.Proofs.Fallible

/-! # Decoding loses nothing

Decoding needs remainders, which there are for divisors other than zero only, and slices, which must
end inside of the buffer. Done step by step with operations that halt otherwise it never halts. The
elements that it yields and the bytes left over make up the buffer, and every diagnosis is founded.
-/

namespace AudioFeatures

/-- The number of whole elements is kept by cutting the rest off. -/
theorem Buffer.length_toArray_whole (b : Buffer) (t : ElementType) :
    ((b.whole t).toArray t).length = b.bytes.length / t.size := by
  have hle : b.bytes.length / t.size * t.size ≤ b.bytes.length := Nat.div_mul_le_self _ _
  simp [TypedArray.length, Buffer.toArray, Buffer.whole, List.length_take, Nat.min_eq_left hle,
    Nat.mul_div_cancel _ t.size_pos]

/-- The bytes behind the last whole element, if there are any. -/
def ElementType.leftover (t : ElementType) (size : Nat) : List Diagnostic :=
  if size % t.size = 0 then [] else [.truncated (size % t.size) t.size]

namespace RowRule

variable {rule : RowRule} {count length : Nat}

/-- The numbers of elements that make up rows. -/
def Admits (rule : RowRule) (count length : Nat) : Prop :=
  match rule with
  | multipleOf => length ∣ count
  | exactLength => count = length

instance : Decidable (rule.Admits count length) :=
  match rule with
  | multipleOf => inferInstanceAs (Decidable (length ∣ count))
  | exactLength => inferInstanceAs (Decidable (count = length))

theorem fits_iff_admits : rule.fits count length = true ↔ rule.Admits count length := by
  cases rule <;> simp [fits, Admits, Nat.dvd_iff_mod_eq_zero]

end RowRule

/-- The count that breaks the rule for rows, if there are rows and it does. -/
def Layout.misfits (l : Layout) (rule : RowRule) (count : Nat) : List Diagnostic :=
  match l with
  | .fixedArray length _ =>
    if rule.Admits count length then [] else [.sizeMismatch count length]
  | _ => []

namespace Layout

variable {l : Layout} {t : ElementType}

theorem diagnose_eq (h : l.rowLength? ≠ some 0) (size : Nat) (rule : RowRule) :
    l.diagnose t size rule = t.leftover size ++ l.misfits rule (size / t.size) := by
  cases l with
  | scalar name => simp [diagnose, rowLength?, ElementType.leftover, misfits]
  | window e => simp [diagnose, rowLength?, ElementType.leftover, misfits]
  | fixedArray n e =>
    obtain ⟨n, rfl⟩ := Nat.exists_eq_succ_of_ne_zero (n := n) fun hn => h (by rw [hn]; rfl)
    simp [diagnose, rowLength?, ElementType.leftover, misfits, RowRule.fits_iff_admits]

theorem diagnose_of_zero (h : l.rowLength? = some 0) (size : Nat) (rule : RowRule) :
    l.diagnose t size rule = t.leftover size := by
  simp [diagnose, h, ElementType.leftover]

end Layout

/-- How a computation ends that may fail and that may also halt halfway. -/
inductive Guarded (α : Type) where
  | halt
  | fail (e : Error)
  | done (a : α)

namespace Guarded

variable {α β : Type} {n m d : Nat} {bytes : Bytes} {t : ElementType}

protected def bind : Guarded α → (α → Guarded β) → Guarded β
  | halt, _ => halt
  | fail e, _ => fail e
  | done a, f => f a

instance : Monad Guarded where
  pure := done
  bind := Guarded.bind

@[simp] theorem fail_bind (e : Error) (f : α → Guarded β) : fail e >>= f = fail e := rfl

@[simp] theorem done_bind (a : α) (f : α → Guarded β) : done a >>= f = f a := rfl

def ofExcept : Except Error α → Guarded α
  | .error e => fail e
  | .ok a => done a

@[simp] theorem ofExcept_error (e : Error) : (ofExcept (.error e) : Guarded α) = fail e := rfl

@[simp] theorem ofExcept_ok (a : α) : ofExcept (.ok a) = done a := rfl

/-- A quotient, for divisors other than zero. -/
def div (n d : Nat) : Guarded Nat := if d = 0 then halt else done (n / d)

/-- A remainder, for divisors other than zero. -/
def rem (n d : Nat) : Guarded Nat := if d = 0 then halt else done (n % d)

/-- A difference that is not below zero. -/
def sub (n m : Nat) : Guarded Nat := if m ≤ n then done (n - m) else halt

/-- A slice that ends inside of the bytes. -/
def take (bytes : Bytes) (n : Nat) : Guarded Bytes :=
  if n ≤ bytes.length then done (bytes.take n) else halt

/-- The first elements, each from a slice of its size. -/
def elements (t : ElementType) : Nat → Bytes → Guarded (List (Element t))
  | 0, _ => done []
  | n + 1, bytes => do
    let x ← take bytes t.size
    let xs ← elements t n (bytes.drop t.size)
    return Element.ofBytes t x :: xs

def toArray (b : Buffer) (t : ElementType) : Guarded TypedArray := do
  let count ← div b.bytes.length t.size
  let misplaced ← rem b.offset t.size
  let ragged ← rem b.bytes.length t.size
  let xs ← elements t count b.bytes
  return ⟨t, xs, misplaced == 0 && ragged == 0⟩

def fits (rule : RowRule) (count length : Nat) : Guarded Bool :=
  match rule with
  | .multipleOf => return (← rem count length) == 0
  | .exactLength => return count == length

/-- A diagnosis behind those that were made before, or an error, as the policy wants it. -/
def report (l : Layout) (policy : MismatchPolicy) (found : List Diagnostic) (d : Diagnostic) :
    Guarded (List Diagnostic) :=
  match policy with
  | .warn => done (found ++ [d])
  | .error => fail (.sizeMismatch l.text (.diagnostic d))

def reportAll (l : Layout) (policy : MismatchPolicy) (found ds : List Diagnostic) :
    Guarded (List Diagnostic) :=
  match policy, ds with
  | .error, d :: _ => fail (.sizeMismatch l.text (.diagnostic d))
  | _, _ => done (found ++ ds)

theorem report_eq (l : Layout) (policy : MismatchPolicy) (found : List Diagnostic)
    (d : Diagnostic) : report l policy found d = reportAll l policy found [d] := by
  cases policy <;> rfl

@[simp] theorem reportAll_nil (l : Layout) (policy : MismatchPolicy) (found : List Diagnostic) :
    reportAll l policy found [] = done found := by
  cases policy <;> simp [reportAll]

/-- The layout's own part of a decoding. -/
def arrange (l : Layout) (a : TypedArray) (options : DecodeOptions) (found : List Diagnostic) :
    Guarded Decoded :=
  match l with
  | .scalar _ => return ⟨l.value a, none, found⟩
  | .window _ => return ⟨.array a, none, found⟩
  | .fixedArray length _ =>
    if length = 0 then fail (.malformedFormat l.text)
    else do
      let fit ← fits options.rule a.length length
      let found ← if fit then done found
        else report l options.policy found (.sizeMismatch a.length length)
      return ⟨.array a, some length, found⟩

/-- Decoding in single steps. -/
def decode (l : Layout) (b : Buffer) (options : DecodeOptions) : Guarded Decoded := do
  let t ← ofExcept l.elementType
  let trailing ← rem b.bytes.length t.size
  let found ← if trailing = 0 then done []
    else report l options.policy [] (.truncated trailing t.size)
  let size ← sub b.bytes.length trailing
  let bytes ← take b.bytes size
  let a ← toArray { b with bytes } t
  arrange l a options found

theorem div_eq (h : 0 < d) : div n d = done (n / d) := if_neg (by omega)

theorem rem_eq (h : 0 < d) : rem n d = done (n % d) := if_neg (by omega)

theorem sub_eq (h : m ≤ n) : sub n m = done (n - m) := if_pos h

theorem take_eq (h : n ≤ bytes.length) : take bytes n = done (bytes.take n) := if_pos h

theorem elements_eq (h : n * t.size ≤ bytes.length) :
    elements t n bytes = done (Element.listOfBytes t n bytes) := by
  induction n generalizing bytes with
  | zero => rfl
  | succ n ih =>
    rw [Nat.succ_mul] at h
    have hrest : n * t.size ≤ (bytes.drop t.size).length := by rw [List.length_drop]; omega
    rw [elements, take_eq (by omega), ih hrest]
    rfl

theorem toArray_eq (b : Buffer) (t : ElementType) : toArray b t = done (b.toArray t) := by
  rw [toArray, div_eq t.size_pos, rem_eq t.size_pos, rem_eq t.size_pos]
  simp only [done_bind, elements_eq (Nat.div_mul_le_self _ _)]
  rfl

theorem fits_eq (rule : RowRule) (h : 0 < d) (n : Nat) : fits rule n d = done (rule.fits n d) := by
  cases rule with
  | multipleOf => rw [fits, rem_eq h]; rfl
  | exactLength => rfl

theorem arrange_eq (l : Layout) (a : TypedArray) (options : DecodeOptions)
    (found : List Diagnostic) : arrange l a options found =
      if l.rowLength? = some 0 then fail (.malformedFormat l.text)
      else do
        let found ← reportAll l options.policy found (l.misfits options.rule a.length)
        return ⟨l.value a, l.rowLength?, found⟩ := by
  cases l with
  | scalar name => simp [arrange, Layout.rowLength?, Layout.misfits]
  | window e => simp [arrange, Layout.rowLength?, Layout.misfits, Layout.value]
  | fixedArray n e =>
    cases n with
    | zero => simp [arrange, Layout.rowLength?]
    | succ n =>
      by_cases hfit : options.rule.Admits a.length (n + 1)
      · simp [arrange, Layout.rowLength?, Layout.misfits, Layout.value, fits_eq, hfit,
          RowRule.fits_iff_admits]
      · simp [arrange, Layout.rowLength?, Layout.misfits, Layout.value, fits_eq, hfit,
          RowRule.fits_iff_admits, report_eq]

/-- Diagnoses may be reported one after the other or at once. -/
theorem reportAll_append (l : Layout) (policy : MismatchPolicy) (ds es : List Diagnostic)
    (k : List Diagnostic → Guarded α) :
    (reportAll l policy [] ds >>= fun found => reportAll l policy found es >>= k) =
      reportAll l policy [] (ds ++ es) >>= k := by
  cases policy with
  | warn => simp [reportAll]
  | error =>
    cases ds with
    | nil => simp [reportAll_nil]
    | cons d ds => rfl

theorem ofExcept_decode (l : Layout) (b : Buffer) (options : DecodeOptions) {t : ElementType}
    (ht : l.elementType = .ok t) : ofExcept (l.decode b options) =
      reportAll l options.policy [] (l.diagnose t b.bytes.length options.rule) >>= fun found =>
        if l.rowLength? = some 0 then fail (.malformedFormat l.text)
        else done ⟨l.value ((b.whole t).toArray t), l.rowLength?, found⟩ := by
  rw [Layout.decode, ht, ok_bind]
  by_cases hz : l.rowLength? = some 0
  · cases options.policy <;> cases l.diagnose t b.bytes.length options.rule <;> simp [reportAll, hz]
  · cases options.policy <;> cases l.diagnose t b.bytes.length options.rule <;> simp [reportAll, hz]

/-- No step of a decoding halts. -/
theorem decode_eq (l : Layout) (b : Buffer) (options : DecodeOptions) :
    decode l b options = ofExcept (l.decode b options) := by
  cases ht : l.elementType with
  | error e =>
    simp only [decode, Layout.decode, ht]
    rfl
  | ok t =>
    have hle : b.bytes.length % t.size ≤ b.bytes.length := Nat.mod_le _ _
    have hsteps : decode l b options =
        (reportAll l options.policy [] (t.leftover b.bytes.length) >>=
          arrange l ((b.whole t).toArray t) options) := by
      simp only [decode, ht, ofExcept_ok, done_bind, rem_eq t.size_pos, report_eq, sub_eq hle,
        ← Nat.div_mul_self_eq_mod_sub_self, take_eq (Nat.div_mul_le_self _ _), toArray_eq,
        Buffer.whole, ElementType.leftover]
      split <;> simp
    rw [hsteps, ofExcept_decode l b options ht]
    by_cases hz : l.rowLength? = some 0
    · simp only [funext (arrange_eq l _ options), hz, if_true, Layout.diagnose_of_zero hz]
    · simp only [funext (arrange_eq l _ options), hz, if_false, Layout.diagnose_eq hz,
        b.length_toArray_whole]
      exact reportAll_append _ _ _ _ _

end Guarded

/-! ## What was decoded -/

namespace Layout

variable {l : Layout} {b : Buffer} {options : DecodeOptions} {d : Decoded}

/-- A bare element is the only one of a plain layout. -/
theorem value_cases (l : Layout) (a : TypedArray) :
    (∃ name x, l = scalar name ∧ a.elements = [x] ∧ l.value a = .scalar ⟨a.type, x⟩) ∨
      ((∀ name x, l = scalar name → a.elements ≠ [x]) ∧ l.value a = .array a) := by
  fun_cases value l a with
  | case1 name x hx => exact .inl ⟨name, x, rfl, hx, rfl⟩
  | case2 _ hne => exact .inr ⟨hne, rfl⟩

theorem type_value (l : Layout) (a : TypedArray) : (l.value a).type = a.type := by
  obtain ⟨name, x, -, -, hv⟩ | ⟨-, hv⟩ := l.value_cases a <;> rw [hv] <;> rfl

theorem listToBytes_value (l : Layout) (a : TypedArray) :
    Element.listToBytes (l.value a).elements = a.bytes := by
  obtain ⟨name, x, -, hx, hv⟩ | ⟨-, hv⟩ := l.value_cases a
  · rw [hv, TypedArray.bytes, hx]
    rfl
  · rw [hv]
    rfl

theorem value_eq_scalar_iff (a : TypedArray) :
    (∃ s, l.value a = .scalar s) ↔ (∃ name, l = scalar name) ∧ a.length = 1 := by
  rw [TypedArray.length, List.length_eq_one_iff]
  obtain ⟨name, x, rfl, hx, hv⟩ | ⟨hne, hv⟩ := l.value_cases a
  · simp [hv, hx]
  · rw [hv]
    constructor
    · rintro ⟨s, hs⟩
      cases hs
    · rintro ⟨⟨name, rfl⟩, x, hx⟩
      exact absurd hx (hne name x rfl)

theorem decode_eq_ok (h : l.decode b options = .ok d) :
    ∃ t, l.elementType = .ok t ∧ l.rowLength? ≠ some 0 ∧
      d = ⟨l.value ((b.whole t).toArray t), l.rowLength?,
        l.diagnose t b.bytes.length options.rule⟩ := by
  obtain ⟨t, ht, h⟩ := bind_eq_ok_iff.1 h
  refine ⟨t, ht, ?_⟩
  dsimp only at h
  split at h
  · cases h
  · split at h
    · cases h
    case isFalse hz =>
      cases h
      exact ⟨by simpa using hz, rfl⟩

/-- What a layout and the options make of a buffer. -/
structure Decodes (l : Layout) (b : Buffer) (options : DecodeOptions) (d : Decoded) : Prop where
  type : l.elementType = .ok d.value.type
  /-- The elements, and behind them the bytes that make up none. -/
  bytes : Element.listToBytes d.value.elements ++
    b.bytes.drop (b.bytes.length - b.bytes.length % d.value.type.size) = b.bytes
  scalar : (∃ s, d.value = .scalar s) ↔
    (∃ name, l = .scalar name) ∧ b.bytes.length / d.value.type.size = 1
  rows : ∀ n, d.rowLength? = some n ↔ ∃ element, l = .fixedArray n element
  rows_pos : ∀ n ∈ d.rowLength?, 0 < n
  diagnostics : d.diagnostics = d.value.type.leftover b.bytes.length ++
    l.misfits options.rule (b.bytes.length / d.value.type.size)

theorem rowLength?_eq_some_iff {n : Nat} :
    l.rowLength? = some n ↔ ∃ element, l = .fixedArray n element := by
  cases l <;> simp [rowLength?]

end Layout

/-- The whole elements and what is left over make up the buffer. -/
theorem Buffer.bytes_toArray_whole (b : Buffer) (t : ElementType) :
    ((b.whole t).toArray t).bytes ++ b.bytes.drop (b.bytes.length - b.bytes.length % t.size) =
      b.bytes := by
  have hlength : (b.whole t).bytes.length = b.bytes.length / t.size * t.size :=
    List.length_take_of_le (Nat.div_mul_le_self _ _)
  have hwhole : ((b.whole t).toArray t).bytes = (b.whole t).bytes := by
    rw [TypedArray.bytes, toArray, Element.listToBytes_listOfBytes _ _ _ (Nat.div_mul_le_self _ _),
      hlength, Nat.mul_div_cancel _ t.size_pos, ← hlength, List.take_length]
  rw [hwhole, ← Nat.div_mul_self_eq_mod_sub_self]
  exact List.take_append_drop _ _

namespace Layout

variable {l : Layout} {b : Buffer} {options : DecodeOptions} {d : Decoded}

theorem decodes_of_decode (h : l.decode b options = .ok d) : l.Decodes b options d := by
  obtain ⟨t, ht, hz, rfl⟩ := decode_eq_ok h
  have htype : (l.value ((b.whole t).toArray t)).type = t := l.type_value _
  constructor
  case type => rw [htype, ht]
  case bytes =>
    rw [listToBytes_value, htype]
    exact b.bytes_toArray_whole t
  case scalar => rw [htype, value_eq_scalar_iff, b.length_toArray_whole]
  case rows => exact fun n => rowLength?_eq_some_iff
  case rows_pos =>
    intro n hn
    rw [Option.mem_def] at hn
    exact Nat.pos_of_ne_zero fun h₀ => hz (h₀ ▸ hn)
  case diagnostics => rw [htype, diagnose_eq hz]

/-- Decoding never halts, and what it yields is what the buffer holds. -/
theorem decode_lossless (l : Layout) (b : Buffer) (options : DecodeOptions) :
    Guarded.decode l b options = .ofExcept (l.decode b options) ∧
      ∀ d, l.decode b options = .ok d → l.Decodes b options d :=
  ⟨Guarded.decode_eq l b options, fun _ h => decodes_of_decode h⟩

theorem decode_lossless_rows :
    let l : Layout := .fixedArray 2 (.window (.scalar "int16"))
    let b : Buffer := ⟨[1, 0, 2, 0, 0xff, 0xff, 9], 1⟩
    let d : Decoded := ⟨.array ⟨.int16, [1, 2, 0xffff], false⟩, some 2,
      [.truncated 1 2, .sizeMismatch 3 2]⟩
    l.decode b {} = .ok d ∧ l.Decodes b {} d := by
  have h : Layout.decode (.fixedArray 2 (.window (.scalar "int16")))
      ⟨[1, 0, 2, 0, 0xff, 0xff, 9], 1⟩ {} = .ok ⟨.array ⟨.int16, [1, 2, 0xffff], false⟩, some 2,
        [.truncated 1 2, .sizeMismatch 3 2]⟩ := by cbv
  exact ⟨h, (decode_lossless _ _ _).2 _ h⟩

end Layout

end AudioFeatures
