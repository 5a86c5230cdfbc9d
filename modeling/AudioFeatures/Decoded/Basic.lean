import AudioFeatures.Decoded.Array
import AudioFeatures.Layout.Reader

/-! # Decoded values

A buffer is decoded against a layout. Bytes that make up no whole element and counts that do not
fit the rows of the layout are diagnosed; the policy decides whether a diagnosis is a warning or
an error.
-/

namespace AudioFeatures

/-- What becomes of a buffer that does not fit its layout. -/
inductive MismatchPolicy where
  | warn | error
  deriving DecidableEq, Repr

/-- Which numbers of elements fit rows of a fixed length. -/
inductive RowRule where
  | multipleOf | exactLength
  deriving DecidableEq, Repr

structure DecodeOptions where
  policy : MismatchPolicy := .warn
  rule : RowRule := .multipleOf
  deriving DecidableEq, Repr

def DecodeOptions.strict : DecodeOptions := ⟨.error, .exactLength⟩

namespace RowRule

def fits (rule : RowRule) (count length : Nat) : Bool :=
  match rule with
  | multipleOf => count % length == 0
  | exactLength => count == length

end RowRule

inductive DecodedValue where
  | scalar (s : Scalar)
  | array (a : TypedArray)
  deriving DecidableEq

structure Decoded where
  value : DecodedValue
  /-- The length of a row, for layouts that have rows. -/
  rowLength? : Option Nat
  diagnostics : List Diagnostic
  deriving DecidableEq

namespace DecodedValue

def type : DecodedValue → ElementType
  | scalar s => s.type
  | array a => a.type

def elements : (v : DecodedValue) → List (Element v.type)
  | scalar s => [s.element]
  | array a => a.elements

def array? : DecodedValue → Option TypedArray
  | scalar _ => none
  | array a => some a

def detach : DecodedValue → DecodedValue
  | scalar s => scalar s
  | array a => array a.detach

end DecodedValue

namespace Decoded

def isClean (d : Decoded) : Bool := d.diagnostics.isEmpty

/-- Detaches the value from the buffer that it was decoded from. -/
def detach (d : Decoded) : Decoded := { d with value := d.value.detach }

end Decoded

namespace Layout

/-- The type of the elements, which the layout names. -/
def elementType (l : Layout) : Except Error ElementType :=
  match ElementType.ofName? l.elementTypeName with
  | some t => .ok t
  | none => .error (.unknownType (String.ofList (Text.trim l.elementTypeName.toList)))

/-- What is wrong with `size` bytes of elements of type `t`. -/
def diagnose (l : Layout) (t : ElementType) (size : Nat) (rule : RowRule) : List Diagnostic :=
  let trailing := size % t.size
  let count := size / t.size
  (if trailing == 0 then [] else [.truncated trailing t.size]) ++
    match l.rowLength? with
    | none | some 0 => []
    | some (n + 1) => if rule.fits count (n + 1) then [] else [.sizeMismatch count (n + 1)]

/-- Only a plain layout yields a bare element, namely when there is exactly one. -/
def value (l : Layout) (a : TypedArray) : DecodedValue :=
  match l, a.elements with
  | scalar _, [x] => .scalar ⟨a.type, x⟩
  | _, _ => .array a

def decode (l : Layout) (b : Buffer) (options : DecodeOptions) : Except Error Decoded := do
  let t ← l.elementType
  let diagnostics := l.diagnose t b.bytes.length options.rule
  match options.policy, diagnostics with
  | .error, d :: _ => .error (.sizeMismatch l.text (.diagnostic d))
  | _, _ =>
    if l.rowLength? == some 0 then .error (.malformedFormat l.text)
    else .ok ⟨l.value ((b.whole t).toArray t), l.rowLength?, diagnostics⟩

/-- The log lines of a decoding: one for each diagnosis that is no error. -/
def warnings (l : Layout) (b : Buffer) (options : DecodeOptions) : List LogLine :=
  match options.policy, l.elementType with
  | .warn, .ok t => (l.diagnose t b.bytes.length options.rule).map fun d =>
      .warning ("Format size mismatch: " ++ d.text ++ " (format " ++ l.text ++ ")")
  | _, _ => []

end Layout

namespace Decoded

/-- Decodes a buffer against the layout that a format names. -/
def ofFormat (format : String) (b : Buffer) (options : DecodeOptions) : Except Error Decoded :=
  Layout.parse format >>= fun l => l.decode b options

def warningsOfFormat (format : String) (b : Buffer) (options : DecodeOptions) : List LogLine :=
  match Layout.parse format with
  | .ok l => l.warnings b options
  | .error _ => []

end Decoded

end AudioFeatures
