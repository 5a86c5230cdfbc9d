import AudioFeatures.Json.Basic

/-! # Writing JSON

On one line, or with every item and member on a line of its own, indented by two blanks a level.
-/

namespace AudioFeatures.Json

namespace Writer

def hexDigit (n : Nat) : Char := Nat.digitChar n

/-- Quotation marks, backslashes and control characters are escaped. -/
def escape (c : Char) : List Char :=
  if c == '"' then ['\\', '"']
  else if c == '\\' then ['\\', '\\']
  else if c == '\x08' then ['\\', 'b']
  else if c == '\x0c' then ['\\', 'f']
  else if c == '\n' then ['\\', 'n']
  else if c == '\r' then ['\\', 'r']
  else if c == '\t' then ['\\', 't']
  else if c.toNat < 0x20 then
    ['\\', 'u', '0', '0', hexDigit (c.toNat / 16), hexDigit (c.toNat % 16)]
  else [c]

def string (s : String) : String :=
  String.ofList ('"' :: s.toList.flatMap escape ++ ['"'])

def number : Number → String
  | .natural n => toString n
  | .negative n => "-" ++ toString n
  | .fraction s => s

/-- The blanks before a line at the given depth. -/
def indent (depth : Nat) : String := String.ofList (List.replicate (2 * depth) ' ')

end Writer

open Writer

mutual

/-- Without a blank outside of strings. -/
def compact : Json → String
  | null => "null"
  | bool b => if b then "true" else "false"
  | .number n => Writer.number n
  | .string s => Writer.string (s.getD "")
  | array items => "[" ++ compactItems items ++ "]"
  | object members => "\x7b" ++ compactMembers members ++ "\x7d"

def compactItems : List Json → String
  | [] => ""
  | [j] => compact j
  | j :: js => compact j ++ "," ++ compactItems js

def compactMembers : List (Option String × Json) → String
  | [] => ""
  | [(name, j)] => Writer.string (name.getD "") ++ ":" ++ compact j
  | (name, j) :: ms => Writer.string (name.getD "") ++ ":" ++ compact j ++ "," ++ compactMembers ms

end

mutual

def prettyAt (depth : Nat) : Json → String
  | null => "null"
  | bool b => if b then "true" else "false"
  | .number n => Writer.number n
  | .string s => Writer.string (s.getD "")
  | array [] => "[]"
  | array (j :: js) => "[\n" ++ prettyItems (depth + 1) (j :: js) ++ "\n" ++ indent depth ++ "]"
  | object [] => "\x7b\x7d"
  | object (m :: ms) =>
    "\x7b\n" ++ prettyMembers (depth + 1) (m :: ms) ++ "\n" ++ indent depth ++ "\x7d"

def prettyItems (depth : Nat) : List Json → String
  | [] => ""
  | [j] => indent depth ++ prettyAt depth j
  | j :: js => indent depth ++ prettyAt depth j ++ ",\n" ++ prettyItems depth js

def prettyMembers (depth : Nat) : List (Option String × Json) → String
  | [] => ""
  | [(name, j)] => indent depth ++ Writer.string (name.getD "") ++ ": " ++ prettyAt depth j
  | (name, j) :: ms =>
    indent depth ++ Writer.string (name.getD "") ++ ": " ++ prettyAt depth j ++ ",\n" ++
      prettyMembers depth ms

end

/-- One item or member a line. -/
def pretty (j : Json) : String := prettyAt 0 j

end AudioFeatures.Json
