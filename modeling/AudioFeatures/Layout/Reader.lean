import AudioFeatures.Error
import AudioFeatures.Text.Digits

/-! # Reading formats

A format is the name under which the engine gives the layout of a result. The length of a fixed
array is the last number before the first comma, which passes over a cast in front of it.
-/

namespace AudioFeatures.Layout

namespace Reader

def tupleMarkers : List String := ["std::tuple", "tuple<", "Tuple<"]

/-- One star at the end is the mark of a pointer. -/
def dropStar (s : List Char) : List Char :=
  if s.getLast? == some '*' then s.dropLast else s

/-- What a text says about the length of a fixed array. -/
inductive Length where
  | missing
  /-- The number starts inside a character of several bytes. -/
  | split
  | number (n : Nat)
  deriving DecidableEq, Repr

/-- The last run of digits; the character before it must be a single byte. -/
def lengthIn (s : List Char) : Length :=
  let upToRun := s.reverse.dropWhile fun c => !c.isDigit
  match upToRun.takeWhile Char.isDigit with
  | [] => .missing
  | run =>
    match upToRun.dropWhile Char.isDigit with
    | [] => .number (Text.natOfDigits run.reverse)
    | c :: _ => if c.toNat < 0x80 then .number (Text.natOfDigits run.reverse) else .split

def isClosing (c : Char) : Bool := c == '>' || c == ')' || c == '*' || Text.isBlank c

/-- The element of a layout, for which only the name of a type will do. -/
def element (format : String) (s : List Char) : Except Error Layout :=
  match Text.trim s with
  | [] => .error (.malformedFormat format)
  | name =>
    if name.any fun c => c == '<' || c == '>' || c == ',' then .error (.unsupportedFormat format)
    else .ok (scalar (String.ofList name))

/-- The part of a format after `FixedArray<`. -/
def fixedArray (format : String) (body : List Char) : Except Error Layout :=
  if !body.contains ',' then .error (.malformedFormat format)
  else
    match lengthIn (body.takeWhile (· != ',')) with
    | .missing => .error (.malformedFormat format)
    | .split => .error (.splitCharacter format)
    | .number n =>
      if n == 0 || UInt64.size ≤ n then .error (.malformedFormat format)
      else
        let rest := (body.dropWhile (· != ',')).drop 1
        (element format (rest.reverse.dropWhile isClosing).reverse).map (.fixedArray n)

/-- The part of a format after `Window<`. -/
def window (format : String) (body : List Char) : Except Error Layout :=
  if body.getLast? == some '>' then (element format body.dropLast).map .window
  else .error (.malformedFormat format)

end Reader

open Reader in
/-- The layout that a format names. -/
def parse (format : String) : Except Error Layout :=
  match Text.trim format.toList with
  | [] => .error (.malformedFormat format)
  | s =>
    if !s.contains '<' then
      match Text.trimEnd (dropStar s) with
      | [] => .error (.malformedFormat format)
      | name => .ok (scalar (String.ofList name))
    else
      match Text.after? "FixedArray<".toList s with
      | some body => Reader.fixedArray format body
      | none =>
        if "Window<".toList.isPrefixOf s then Reader.window format (s.drop "Window<".length)
        else if tupleMarkers.any fun m => m.toList.isPrefixOf s then
          .error (.unsupportedFormat format)
        else .error (.malformedFormat format)

end AudioFeatures.Layout
