import AudioFeatures.Json.Basic
import AudioFeatures.Text.Digits

/-! # Reading JSON

The grammar is strict: no comments, no commas at the end, no leading zeros, and nothing but blanks
after the value. What a string or number literal stands for is not judged here.
-/

namespace AudioFeatures.Json

namespace Reader

def isSpace (c : Char) : Bool := c == ' ' || c == '\t' || c == '\n' || c == '\r'

def skip (s : List Char) : List Char := s.dropWhile isSpace

def hexValue? (c : Char) : Option Nat :=
  if c.isDigit then some (c.toNat - 48)
  else if 'a' ≤ c && c ≤ 'f' then some (c.toNat - 87)
  else if 'A' ≤ c && c ≤ 'F' then some (c.toNat - 55)
  else none

def unit? (a b c d : Char) : Option Nat := do
  return (((← hexValue? a) * 16 + (← hexValue? b)) * 16 + (← hexValue? c)) * 16 + (← hexValue? d)

def escaped? : Char → Option Char
  | '"' => some '"'
  | '\\' => some '\\'
  | '/' => some '/'
  | 'b' => some '\x08'
  | 'f' => some '\x0c'
  | 'n' => some '\n'
  | 'r' => some '\r'
  | 't' => some '\t'
  | _ => none

def isHighSurrogate (u : Nat) : Bool := 0xd800 ≤ u && u < 0xdc00

def isLowSurrogate (u : Nat) : Bool := 0xdc00 ≤ u && u < 0xe000

/-- A character of a string literal, or the code unit that an escape names. -/
inductive Piece where
  | char (c : Char)
  | unit (u : Nat)

/-- The pieces of a string literal after its opening quotation mark, and what follows it. -/
def pieces? : List Char → Option (List Piece × List Char)
  | [] => none
  | '"' :: s => some ([], s)
  | '\\' :: 'u' :: a :: b :: c :: d :: s =>
    match unit? a b c d with
    | none => none
    | some u => (pieces? s).map fun (ps, r) => (.unit u :: ps, r)
  | '\\' :: e :: s =>
    match escaped? e with
    | none => none
    | some c => (pieces? s).map fun (ps, r) => (.char c :: ps, r)
  | c :: s =>
    if c.toNat < 0x20 || c == '\\' then none
    else (pieces? s).map fun (ps, r) => (.char c :: ps, r)

/-- Joins the halves of surrogate pairs; a half that stands alone spells nothing. -/
def join? : List Piece → Option (List Char)
  | [] => some []
  | .char c :: ps => (join? ps).map (c :: ·)
  | .unit u :: ps =>
    if isLowSurrogate u then none
    else if isHighSurrogate u then
      match ps with
      | .unit v :: ps =>
        if isLowSurrogate v then
          (join? ps).map (Char.ofNat (0x10000 + (u - 0xd800) * 0x400 + (v - 0xdc00)) :: ·)
        else none
      | _ => none
    else (join? ps).map (Char.ofNat u :: ·)

/-- The rest of a string literal after its opening quotation mark, and what follows it. -/
def stringRest? (s : List Char) : Option (Option String × List Char) :=
  (pieces? s).map fun (ps, r) => ((join? ps).map String.ofList, r)

/-- Digits, of which there must be one. -/
def digits? (s : List Char) : Option (List Char × List Char) :=
  match s.takeWhile Char.isDigit with
  | [] => none
  | ds => some (ds, s.dropWhile Char.isDigit)

/-- The part of a number literal after a point or an exponent mark. -/
def fraction? (s : List Char) : Option (List Char × List Char) := do
  let (point, s) ← match s with
    | '.' :: r => (digits? r).map fun d => ('.' :: d.1, d.2)
    | _ => some ([], s)
  match s with
  | e :: r =>
    if e == 'e' || e == 'E' then
      let (sign, r) := match r with
        | '+' :: r => (['+'], r)
        | '-' :: r => (['-'], r)
        | r => ([], r)
      let (ds, r) ← digits? r
      return (point ++ e :: sign ++ ds, r)
    else return (point, s)
  | [] => return (point, s)

def number? (s : List Char) : Option (Number × List Char) := do
  let (isNegative, r) := match s with
    | '-' :: r => (true, r)
    | r => (false, r)
  let (ds, r) ← match r with
    | '0' :: r => some (['0'], r)
    | r => digits? r
  let (part, r) ← fraction? r
  let n := Text.natOfDigits ds
  match part with
  | [] => return (if isNegative then .negative n else .natural n, r)
  | part => return (.fraction (String.ofList ((if isNegative then ['-'] else []) ++ ds ++ part)), r)

mutual

def value? : Nat → List Char → Option (Json × List Char)
  | 0, _ => none
  | fuel + 1, s =>
    match skip s with
    | 'n' :: 'u' :: 'l' :: 'l' :: r => some (null, r)
    | 't' :: 'r' :: 'u' :: 'e' :: r => some (bool true, r)
    | 'f' :: 'a' :: 'l' :: 's' :: 'e' :: r => some (bool false, r)
    | '"' :: r => (stringRest? r).map fun (t, r) => (string t, r)
    | '[' :: r =>
      match skip r with
      | ']' :: r => some (array [], r)
      | r => (items? fuel r).map fun (items, r) => (array items, r)
    | '\x7b' :: r =>
      match skip r with
      | '\x7d' :: r => some (object [], r)
      | r => (members? fuel r).map fun (members, r) => (object members, r)
    | r => (number? r).map fun (n, r) => (number n, r)

/-- Items up to the closing bracket. -/
def items? : Nat → List Char → Option (List Json × List Char)
  | 0, _ => none
  | fuel + 1, s =>
    match value? fuel s with
    | none => none
    | some (j, r) =>
      match skip r with
      | ',' :: r => (items? fuel r).map fun (js, r) => (j :: js, r)
      | ']' :: r => some ([j], r)
      | _ => none

/-- Members up to the closing brace. -/
def members? : Nat → List Char → Option (List (Option String × Json) × List Char)
  | 0, _ => none
  | fuel + 1, s =>
    match skip s with
    | '"' :: r =>
      match stringRest? r with
      | none => none
      | some (name, r) =>
        match skip r with
        | ':' :: r =>
          match value? fuel r with
          | none => none
          | some (j, r) =>
            let m := (name, j)
            match skip r with
            | ',' :: r => (members? fuel r).map fun (ms, r) => (m :: ms, r)
            | '\x7d' :: r => some ([m], r)
            | _ => none
        | _ => none
    | _ => none

end

end Reader

/-- The value that the whole text spells. -/
def read? (s : String) : Option Json :=
  match Reader.value? (s.length + 1) s.toList with
  | some (j, r) => if (Reader.skip r).isEmpty then some j else none
  | none => none

end AudioFeatures.Json
