import AudioFeatures.Decoded.Rows
import AudioFeatures.Layout.Basic
import AudioFeatures.Scripting.Exception

/-! # Values of scripts

What scripts pass to the library and get from it. Types are checked when an argument is read: a
truth value counts as an integer, a fraction does not, and a text is no sequence.
-/

namespace AudioFeatures.Scripting

inductive Value where
  | none
  | bool (b : Bool)
  | int (n : Int)
  | float (x : Float)
  | text (s : String)
  | bytes (b : Bytes)
  | byteArray (b : Bytes)
  | list (items : List Value)
  | tuple (items : List Value)
  | dict (members : List (String × Value))
  | array (c : Column)
  | exception (x : Exception)
  deriving Inhabited

namespace Value

def toBool : Value → Except Exception Bool
  | bool b => .ok b
  | _ => .error .argumentType

def toInt : Value → Except Exception Int
  | int n => .ok n
  | bool b => .ok (if b then 1 else 0)
  | _ => .error .argumentType

/-- An integer of the given range. -/
def toIntIn (low high : Int) (v : Value) : Except Exception Int := do
  let n ← v.toInt
  if low ≤ n ∧ n < high then return n else .error .argumentRange

def toUInt64 (v : Value) : Except Exception UInt64 :=
  (v.toIntIn 0 0x10000000000000000).map fun n => UInt64.ofNat n.toNat

def toUInt32 (v : Value) : Except Exception UInt32 :=
  (v.toIntIn 0 0x100000000).map fun n => UInt32.ofNat n.toNat

def toInt32 (v : Value) : Except Exception Int32 :=
  (v.toIntIn (-0x80000000) 0x80000000).map Int32.ofInt

def toInt16 (v : Value) : Except Exception Int16 :=
  (v.toIntIn (-0x8000) 0x8000).map Int16.ofInt

def toText : Value → Except Exception String
  | text s => .ok s
  | _ => .error .argumentType

def toBytes : Value → Except Exception Bytes
  | bytes b => .ok b
  | _ => .error .argumentType

/-- The absent value stands for nothing, anything else is read. -/
def toOption {α : Type} (read : Value → Except Exception α) : Value → Except Exception (Option α)
  | none => .ok Option.none
  | v => (read v).map some

/-- The items of a sequence; those of bytes are the bytes. -/
def toItems : Value → Except Exception (List Value)
  | list items | tuple items => .ok items
  | bytes b | byteArray b => .ok (b.map fun x => int x.toNat)
  | _ => .error .argumentType

def toTexts (v : Value) : Except Exception (List String) := do (← v.toItems).mapM toText

/-- Samples of 16 bits, either as their bytes or as a sequence of integers. -/
def toSamples : Value → Except Exception (List Int16)
  | bytes b =>
    if b.length % 2 == 0 then
      .ok ((Element.listOfBytes .int16 (b.length / 2) b).map fun x => Int16.ofInt x.toInt)
    else .error (.oddLength b.length)
  | v => do (← v.toItems).mapM toInt16

def ofScalar (s : Scalar) : Value :=
  if s.type.isFloat then float s.toFloat else int s.element.toInt

/-- A bare element is a number, anything else an array. -/
def ofDecoded (d : Decoded) : Except Exception Value :=
  match d.value with
  | .scalar s => .ok (ofScalar s)
  | .array _ => (d.toColumn.map array).mapError .failed

def ofLayout : Layout → Value
  | .scalar name => dict [("kind", text "scalar"), ("type_name", text name)]
  | .fixedArray n element => dict [
      ("kind", text "fixed_array"), ("length", int n), ("element", ofLayout element)]
  | .window element => dict [("kind", text "window"), ("element", ofLayout element)]

def ofTexts (texts : List String) : Value := list (texts.map text)

end Value

end AudioFeatures.Scripting
