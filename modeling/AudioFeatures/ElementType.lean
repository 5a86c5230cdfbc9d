import AudioFeatures.Bytes
import AudioFeatures.Text.Blank

/-! # Element types

The ten fixed-width types that a buffer may hold, the names under which formats refer to them, and
their elements as bit patterns.
-/

namespace AudioFeatures

inductive ElementType where
  | int8 | int16 | int32 | int64
  | uint8 | uint16 | uint32 | uint64
  | float32 | float64
  deriving DecidableEq, Repr

namespace ElementType

/-- The size of an element in bytes, which is also its alignment. -/
def size : ElementType → Nat
  | int8 | uint8 => 1
  | int16 | uint16 => 2
  | int32 | uint32 | float32 => 4
  | int64 | uint64 | float64 => 8

def name : ElementType → String
  | int8 => "Int8"
  | int16 => "Int16"
  | int32 => "Int32"
  | int64 => "Int64"
  | uint8 => "UInt8"
  | uint16 => "UInt16"
  | uint32 => "UInt32"
  | uint64 => "UInt64"
  | float32 => "Float32"
  | float64 => "Float64"

def isFloat : ElementType → Bool
  | float32 | float64 => true
  | _ => false

def isSigned : ElementType → Bool
  | int8 | int16 | int32 | int64 => true
  | _ => false

/-- Every accepted spelling, with the type that it names. -/
def spellings : List (String × ElementType) := [
    ("byte", int8), ("char", int8), ("int8", int8), ("int8_t", int8), ("signed char", int8),
    ("ubyte", uint8), ("uchar", uint8), ("uint8", uint8), ("uint8_t", uint8),
    ("unsigned char", uint8),
    ("short", int16), ("int16", int16), ("int16_t", int16), ("short int", int16),
    ("ushort", uint16), ("uint16", uint16), ("uint16_t", uint16), ("unsigned short", uint16),
    ("int", int32), ("int32", int32), ("int32_t", int32),
    ("uint", uint32), ("uint32", uint32), ("uint32_t", uint32), ("unsigned", uint32),
    ("unsigned int", uint32),
    ("long", int64), ("longlong", int64), ("int64", int64), ("int64_t", int64),
    ("long long", int64),
    ("ulong", uint64), ("ulonglong", uint64), ("uint64", uint64), ("uint64_t", uint64),
    ("size_t", uint64), ("unsigned long", uint64), ("unsigned long long", uint64),
    ("float", float32), ("float32", float32),
    ("double", float64), ("float64", float64)]

/-- The type that a name spells, blanks around it aside. -/
def ofName? (name : String) : Option ElementType :=
  spellings.lookup (String.ofList (Text.trim name.toList))

theorem size_pos (t : ElementType) : 0 < t.size := by cases t <;> decide

end ElementType

/-- The bit pattern of one element. -/
abbrev Element (t : ElementType) := BitVec (8 * t.size)

namespace Element

variable {t : ElementType}

def toBytes (x : Element t) : Bytes := Bytes.ofNat t.size x.toNat

def ofBytes (t : ElementType) (bytes : Bytes) : Element t := BitVec.ofNat _ (Bytes.toNat bytes)

@[simp] theorem length_toBytes (x : Element t) : x.toBytes.length = t.size := by
  simp [toBytes]

theorem pow_size (t : ElementType) : Nat.pow 256 t.size = Nat.pow 2 (8 * t.size) := by
  rw [Nat.pow_eq, Nat.pow_eq, Nat.pow_mul]

@[simp] theorem ofBytes_toBytes (x : Element t) : ofBytes t x.toBytes = x := by
  apply BitVec.eq_of_toNat_eq
  have hsize : 256 ^ t.size = 2 ^ (8 * t.size) := pow_size t
  simp [ofBytes, toBytes, Bytes.toNat_ofNat, hsize]

theorem toBytes_ofBytes {bytes : Bytes} (h : bytes.length = t.size) :
    (ofBytes t bytes).toBytes = bytes := by
  have hlt : Bytes.toNat bytes < 2 ^ (8 * t.size) := by
    have := Bytes.toNat_ofNat t.size (Bytes.toNat bytes)
    rw [← h, Bytes.ofNat_toNat] at this
    rw [this, h, pow_size]
    exact Nat.mod_lt _ (Nat.two_pow_pos _)
  simp only [ofBytes, toBytes, BitVec.toNat_ofNat, Nat.mod_eq_of_lt hlt]
  rw [← h, Bytes.ofNat_toNat]

/-- The number that an integer element stands for. -/
def toInt (x : Element t) : Int := if t.isSigned then BitVec.toInt x else x.toNat

/-- The nearest double precision number; a NaN stays one. -/
def toFloat (x : Element t) : Float :=
  match t, x with
  | .float32, x => (Float32.ofBits (UInt32.ofNat x.toNat)).toFloat
  | .float64, x => Float.ofBits (UInt64.ofNat x.toNat)
  | .uint64, x => (UInt64.ofNat x.toNat).toFloat
  | _, x => (Int64.ofInt x.toInt).toFloat

def isNaN (x : Element t) : Bool :=
  match t, x with
  | .float32, x => 0x7f800000 < x.toNat % 0x80000000
  | .float64, x => 0x7ff0000000000000 < x.toNat % 0x8000000000000000
  | _, _ => false

end Element

/-- An element together with its type. -/
structure Scalar where
  type : ElementType
  element : Element type
  deriving DecidableEq

namespace Scalar

def toFloat (s : Scalar) : Float := s.element.toFloat

end Scalar

end AudioFeatures
