import AudioFeatures.Bytes
import AudioFeatures.Error

/-! # Texts of the engine

The engine hands over texts as bytes that a zero byte ends, or nothing in place of the empty text.
Nothing promises that the bytes are UTF-8.
-/

namespace AudioFeatures

/-- The bytes before the terminator, or `none` for a null pointer. -/
abbrev ForeignText := Option Bytes

namespace ForeignText

/-- A null pointer reads as the empty text. -/
def read (t : ForeignText) : Except Error String :=
  match t with
  | none => .ok ""
  | some bytes => (Text.Utf8.decode bytes).mapError fun fault => .invalidString (.notUtf8 fault)

/-- The first `n` texts of a list, which may be a null pointer itself. -/
def readList (ts : Option (List ForeignText)) (n : Nat) : Except Error (List String) :=
  match ts with
  | none => .ok []
  | some ts => (ts.take n).mapM read

/-- The bytes up to the first zero byte. -/
def cut (bytes : Bytes) : Bytes := bytes.takeWhile (· != 0)

/-- Bytes that the engine can take as a text: there must be no zero byte among them. -/
def checkBytes (bytes : Bytes) : Except Error Bytes :=
  if bytes.contains 0 then .error (.invalidString (.interiorNul (cut bytes).length))
  else .ok bytes

def check (s : String) : Except Error String := (checkBytes (Text.Utf8.encode s)).map fun _ => s

end ForeignText

end AudioFeatures
