import AudioFeatures.Scripting.Value

/-! # Signatures

Scripts pass arguments by name. First the names are checked against the signature of the function,
then the arguments are read in the order of its parameters.
-/

namespace AudioFeatures.Scripting

abbrev Arguments := List (String × Value)

structure Signature where
  required : List String := []
  optional : List String := []
  deriving DecidableEq, Repr

namespace Signature

/-- Every argument has a parameter, and no required one is missing. -/
def accepts (s : Signature) (args : Arguments) : Bool :=
  (args.all fun a => s.required.contains a.1 || s.optional.contains a.1) &&
    s.required.all fun name => args.any fun a => a.1 == name

def check (s : Signature) (args : Arguments) : Except Exception Unit :=
  if s.accepts args then .ok () else .error .argumentType

end Signature

namespace Arguments

variable {α : Type}

def required (args : Arguments) (name : String) (read : Value → Except Exception α) :
    Except Exception α :=
  match args.lookup name with
  | some v => read v
  | none => .error .argumentType

def optional (args : Arguments) (name : String) (default : α)
    (read : Value → Except Exception α) : Except Exception α :=
  match args.lookup name with
  | some v => read v
  | none => .ok default

end Arguments

end AudioFeatures.Scripting
