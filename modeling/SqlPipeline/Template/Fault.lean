/-!
# Faults of a template

Why a template cannot be read or rendered, and on which line. An undefined value is told apart from
every other cause, because it usually means a missing model, source or variable.
-/

namespace SqlPipeline.Template

/-- Why a template cannot be read or rendered. -/
inductive Cause where
  /-- A name, source, variable or member that is not there. -/
  | undefinedValue (detail : Option String)
  /-- Text that does not belong to the template language. -/
  | malformed (detail : String)
  /-- An operation on values that it does not apply to. -/
  | invalidOperation (detail : String)
  | unknownFunction (name : String)
  | unknownFilter (name : String)
  | unknownTest (name : String)
  | unknownMethod (name : String)
  | missingArgument
  | tooManyArguments
deriving DecidableEq, Repr

/-- A cause and the line where it arose. -/
structure Fault where
  cause : Cause
  line : Nat
deriving DecidableEq, Repr

namespace Fault

/-- Whether the cause is an undefined value. -/
def isUndefined (fault : Fault) : Bool :=
  match fault.cause with
  | .undefinedValue _ => true
  | _ => false

/-- The name that a template without a name of its own goes by. -/
def place (fault : Fault) : String := " (in <string>:" ++ toString fault.line ++ ")"

/-- What went wrong, in words. -/
def message (fault : Fault) : String :=
  match fault.cause with
  | .undefinedValue (some detail) => detail
  | .undefinedValue none => "undefined value" ++ fault.place
  | .malformed detail => detail
  | .invalidOperation detail => detail
  | .unknownFunction name => name ++ " is unknown"
  | .unknownFilter name => "filter " ++ name ++ " is unknown"
  | .unknownTest name => "test " ++ name ++ " is unknown"
  | .unknownMethod name => "value has no method named " ++ name
  | .missingArgument => "missing argument" ++ fault.place
  | .tooManyArguments => "too many arguments" ++ fault.place

end Fault

end SqlPipeline.Template
