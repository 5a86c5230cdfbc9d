import AudioFeatures.ElementType

/-! # Layouts

How the elements of a buffer are arranged: one element or a plain run of them, rows of a fixed
length, or a window whose length the buffer gives.
-/

namespace AudioFeatures

inductive Layout where
  | scalar (typeName : String)
  | fixedArray (length : Nat) (element : Layout)
  | window (element : Layout)
  deriving DecidableEq, Inhabited, Repr

namespace Layout

/-- The spelling of the element type, however deep the layout is nested. -/
def elementTypeName : Layout → String
  | scalar typeName => typeName
  | fixedArray _ element => element.elementTypeName
  | window element => element.elementTypeName

/-- The printed form, which reads back as the layout where it is one of those that formats name. -/
def text : Layout → String
  | scalar typeName => typeName
  | fixedArray length element => "FixedArray<" ++ toString length ++ ", " ++ element.text ++ ">"
  | window element => "Window<" ++ element.text ++ ">"

/-- The length of a row, for layouts that have rows. -/
def rowLength? : Layout → Option Nat
  | fixedArray length _ => some length
  | _ => none

end Layout

/-- An observation made while decoding a buffer. -/
inductive Diagnostic where
  /-- The number of elements breaks the rule for rows of the given length. -/
  | sizeMismatch (count length : Nat)
  /-- Bytes are left over after the last whole element. -/
  | truncated (trailing elementSize : Nat)
  deriving DecidableEq, Repr

namespace Diagnostic

def text : Diagnostic → String
  | sizeMismatch count length => s!"real {count} is not a multiple of {length}"
  | truncated trailing elementSize =>
    s!"{trailing} trailing byte(s) do not form a whole {elementSize}-byte element"

end Diagnostic

end AudioFeatures
