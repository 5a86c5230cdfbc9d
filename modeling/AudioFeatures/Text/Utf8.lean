/-! # UTF-8

Reading bytes as text. A fault names the number of bytes that are text and, unless the bytes end
inside a character, the length of the part that no character starts with.
-/

namespace AudioFeatures.Text

structure Utf8Fault where
  validUpTo : Nat
  /-- `none` when more bytes could still complete the character. -/
  badLength : Option Nat
  deriving DecidableEq, Repr

namespace Utf8Fault

def message (e : Utf8Fault) : String :=
  match e.badLength with
  | some n => s!"invalid utf-8 sequence of {n} bytes from index {e.validUpTo}"
  | none => s!"incomplete utf-8 byte sequence from index {e.validUpTo}"

end Utf8Fault

namespace Utf8

def isTail (b : UInt8) : Bool := 0x80 ≤ b && b ≤ 0xbf

/-- The second bytes that may follow the lead byte of a three-byte character. -/
def secondOfThree (lead b : UInt8) : Bool :=
  (if lead == 0xe0 then 0xa0 else 0x80) ≤ b && b ≤ (if lead == 0xed then 0x9f else 0xbf)

/-- The second bytes that may follow the lead byte of a four-byte character. -/
def secondOfFour (lead b : UInt8) : Bool :=
  (if lead == 0xf0 then 0x90 else 0x80) ≤ b && b ≤ (if lead == 0xf4 then 0x8f else 0xbf)

/-- The character whose lead byte contributes `high` and whose tail bytes are `tail`. -/
def join (high : Nat) (tail : List UInt8) : Char :=
  Char.ofNat (tail.foldl (fun n b => n * 64 + b.toNat % 64) high)

/-- Reads characters up to the end or the first fault; `pos` bytes were read before. -/
def scan (pos : Nat) : List UInt8 → List Char × Option Utf8Fault
  | [] => ([], none)
  | b :: rest =>
    let bad n : List Char × Option Utf8Fault := ([], some ⟨pos, n⟩)
    if b < 0x80 then
      let (cs, e) := scan (pos + 1) rest
      (Char.ofNat b.toNat :: cs, e)
    else if 0xc2 ≤ b && b ≤ 0xdf then
      match rest with
      | [] => bad none
      | b₁ :: rest =>
        if isTail b₁ then
          let (cs, e) := scan (pos + 2) rest
          (join (b.toNat % 32) [b₁] :: cs, e)
        else bad (some 1)
    else if 0xe0 ≤ b && b ≤ 0xef then
      match rest with
      | [] => bad none
      | b₁ :: rest =>
        if !secondOfThree b b₁ then bad (some 1) else
        match rest with
        | [] => bad none
        | b₂ :: rest =>
          if isTail b₂ then
            let (cs, e) := scan (pos + 3) rest
            (join (b.toNat % 16) [b₁, b₂] :: cs, e)
          else bad (some 2)
    else if 0xf0 ≤ b && b ≤ 0xf4 then
      match rest with
      | [] => bad none
      | b₁ :: rest =>
        if !secondOfFour b b₁ then bad (some 1) else
        match rest with
        | [] => bad none
        | b₂ :: rest =>
          if !isTail b₂ then bad (some 2) else
          match rest with
          | [] => bad none
          | b₃ :: rest =>
            if isTail b₃ then
              let (cs, e) := scan (pos + 4) rest
              (join (b.toNat % 8) [b₁, b₂, b₃] :: cs, e)
            else bad (some 3)
    else bad (some 1)

def decode (bytes : List UInt8) : Except Utf8Fault String :=
  match scan 0 bytes with
  | (cs, none) => .ok (String.ofList cs)
  | (_, some e) => .error e

def encode (s : String) : List UInt8 := s.toList.flatMap String.utf8EncodeChar

/-- The number of bytes of a text. -/
def size (s : String) : Nat := (encode s).length

theorem decode_nil : decode [] = .ok "" := rfl

end Utf8

end AudioFeatures.Text
