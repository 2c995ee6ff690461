import ProbeLoader.Job

/-!
# Options

What the command line asks for: a job and how talkative the log shall be, or else one of the
texts about the program, or a mistake.
-/

namespace ProbeLoader

/-- What the command line asks for when it asks for a job. -/
structure Options where
  logLevel : Log.Level
  cap : Option Nat
  noPreflight : Bool
  object : Path
  config : String
  deriving DecidableEq, Repr

namespace Options

def defaultLevel : Log.Level := .info

def job (o : Options) : Job where
  object := o.object
  config := .ofName o.config
  cap := o.cap
  preflight := !o.noPreflight

end Options

/-- Mistakes in the use of the command line. -/
inductive UsageError where
  /-- An argument that nothing is known about, or one too many. -/
  | unknownArgument
  /-- A value for an option that takes none. -/
  | unexpectedValue
  /-- A value that is missing, empty or not one of those allowed. -/
  | invalidValue
  | repeated
  | notANumber
  | invalidUtf8
  | missingObject
  deriving DecidableEq, Repr

/-- A short text on a mistake. Only the kind of a mistake is settled: the wording is a choice of
this library, and no statement about the program depends on it. -/
def UsageError.message : UsageError → String
  | .unknownArgument => "unexpected argument"
  | .unexpectedValue => "an option that takes no value was given one"
  | .invalidValue => "a value is missing or not allowed"
  | .repeated => "an option was given more than once"
  | .notANumber => "a value is not a number in range"
  | .invalidUtf8 => "an argument is not valid UTF-8"
  | .missingObject => "the object file is missing"

/-- What the command line asks for when it does not ask for a job. -/
inductive Stop where
  | help (long : Bool)
  | version
  | mistake (e : UsageError)
  deriving DecidableEq, Repr

end ProbeLoader
