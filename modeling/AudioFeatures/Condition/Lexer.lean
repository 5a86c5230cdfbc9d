import AudioFeatures.Condition.Token
import AudioFeatures.Text.Blank
import AudioFeatures.Text.Digits

/-! # Reading tokens

Lexemes are read from left to right, each as long as possible, with ASCII blanks between them. A
lexeme records its place, so that the lexemes and the blanks between them make up the condition.
-/

namespace AudioFeatures.Condition

structure Lexeme where
  /-- The number of bytes before the lexeme. -/
  offset : Nat
  chars : List Char
  token : Token

namespace Lexer

def isNumberPart (c : Char) : Bool := c.isDigit || c == '.'

def isWordStart (c : Char) : Bool := c.isAlpha || c == '_'

def isWordPart (c : Char) : Bool := c.isAlphanum || c == '_'

/-- A number with one point is a fraction, a number without is an integer of 64 bits. -/
def number? (literal : List Char) : Option Token :=
  match literal.filter (· == '.') with
  | [] =>
    let n := Text.natOfDigits literal
    if n < 0x8000000000000000 then some (.int (Int64.ofNat n)) else none
  | [_] =>
    let fraction := (literal.dropWhile (· != '.')).drop 1
    let mantissa := Text.natOfDigits (literal.filter (· != '.'))
    some (.float (Float.ofScientific mantissa true fraction.length))
  | _ => none

/-- The first byte of a character, as a code point. -/
def lead (c : Char) : Char :=
  match String.utf8EncodeChar c with
  | b :: _ => Char.ofNat b.toNat
  | [] => c

def symbol? (s : List Char) : Option (String × Symbol) :=
  Symbol.spellings.find? fun e => e.1.toList.isPrefixOf s

/-- The token that starts with `c`, and how many characters of `rest` belong to it. -/
def token (offset : Nat) (c : Char) (rest : List Char) : Except Fault (Token × Nat) :=
  if c.isDigit || (c == '.' && (rest.head?.map Char.isDigit).getD false) then
    let more := rest.takeWhile isNumberPart
    match number? (c :: more) with
    | some t => .ok (t, more.length)
    | none => .error (.badNumber (String.ofList (c :: more)))
  else if isWordStart c then
    let more := rest.takeWhile isWordPart
    .ok (.word (String.ofList (c :: more)), more.length)
  else if c == '(' then .ok (.opening, 0)
  else if c == ')' then .ok (.closing, 0)
  else
    match symbol? (c :: rest) with
    | some (spelling, s) => .ok (.symbol s, spelling.length - 1)
    | none => .error (.unexpectedCharacter (lead c) offset)

def lexemes (offset : Nat) (s : List Char) : Except Fault (List Lexeme) :=
  match s with
  | [] => .ok []
  | c :: rest =>
    if Text.isAsciiBlank c then lexemes (offset + 1) rest
    else
      match token offset c rest with
      | .error e => .error e
      | .ok (t, n) =>
        match lexemes (offset + n + 1) (rest.drop n) with
        | .error e => .error e
        | .ok ls => .ok (⟨offset, c :: rest.take n, t⟩ :: ls)
termination_by s.length

end Lexer

def tokenize (condition : String) : Except Fault (List Token) :=
  (Lexer.lexemes 0 condition.toList).map fun ls => ls.map (·.token)

end AudioFeatures.Condition
