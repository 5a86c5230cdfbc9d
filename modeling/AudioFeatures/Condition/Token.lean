import AudioFeatures.Decimal.Text

/-! # Tokens of a condition

A condition is a sequence of numbers, words, operator symbols and parentheses.
-/

namespace AudioFeatures.Condition

inductive Comparison where
  | equal | notEqual | less | atMost | greater | atLeast
  deriving DecidableEq, Repr

inductive Arithmetic where
  | add | subtract | multiply | divide | floorDivide | modulo
  deriving DecidableEq, Repr

inductive Symbol where
  | either | both | negation
  | comparison (op : Comparison)
  | arithmetic (op : Arithmetic)
  deriving DecidableEq, Repr

inductive Token where
  | int (n : Int64)
  | float (x : Float)
  | word (name : String)
  | symbol (s : Symbol)
  | opening | closing
  deriving DecidableEq

namespace Symbol

/-- The spellings; one that continues another stands before it. -/
def spellings : List (String × Symbol) := [
    ("//", .arithmetic .floorDivide), ("==", .comparison .equal), ("!=", .comparison .notEqual),
    ("<=", .comparison .atMost), (">=", .comparison .atLeast), ("&&", .both), ("||", .either),
    ("<", .comparison .less), (">", .comparison .greater), ("+", .arithmetic .add),
    ("-", .arithmetic .subtract), ("*", .arithmetic .multiply), ("/", .arithmetic .divide),
    ("%", .arithmetic .modulo), ("!", .negation)]

def text : Symbol → String
  | either => "||"
  | both => "&&"
  | negation => "!"
  | comparison .equal => "=="
  | comparison .notEqual => "!="
  | comparison .less => "<"
  | comparison .atMost => "<="
  | comparison .greater => ">"
  | comparison .atLeast => ">="
  | arithmetic .add => "+"
  | arithmetic .subtract => "-"
  | arithmetic .multiply => "*"
  | arithmetic .divide => "/"
  | arithmetic .floorDivide => "//"
  | arithmetic .modulo => "%"

end Symbol

namespace Token

/-- How a message shows a token. -/
def text : Token → String
  | int n => s!"Int({n.toInt})"
  | float x => s!"Float({floatText .marked x})"
  | word name => s!"Ident(\"{name}\")"
  | symbol s => s!"Op(\"{s.text}\")"
  | opening => "LParen"
  | closing => "RParen"

end Token

/-- Why a condition has no value. -/
inductive Fault where
  | badNumber (literal : String)
  /-- `lead` is the first byte of the character, taken as a code point. -/
  | unexpectedCharacter (lead : Char) (offset : Nat)
  | empty
  | unexpectedEnd
  | keyword (name : String)
  | symbol (s : Symbol)
  | closing
  | unclosed
  | trailing (token : Token)
  | undefined (name : String)
  | divisionByZero
  | overflow
  deriving DecidableEq

namespace Fault

def message : Fault → String
  | badNumber literal => s!"bad number '{literal}'"
  | unexpectedCharacter lead offset => s!"unexpected character '{lead}' at offset {offset}"
  | empty => "empty expression"
  | unexpectedEnd => "unexpected end of expression"
  | keyword name => s!"unexpected keyword '{name}'"
  | symbol s => s!"unexpected operator '{s.text}'"
  | closing => "unexpected ')'"
  | unclosed => "missing ')'"
  | trailing token => s!"unexpected trailing token {token.text}"
  | undefined name => s!"name '{name}' is not defined"
  | divisionByZero => "division by zero"
  | overflow => "integer overflow"

end Fault

end AudioFeatures.Condition
