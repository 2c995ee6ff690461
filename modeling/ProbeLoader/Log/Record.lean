/-!
# Log records

A record has a level, a target that says who speaks, and a message. Levels are ordered from the
most urgent to the most talkative one, and a record is let through by every level from its own
on.
-/

namespace ProbeLoader.Log

inductive Level where
  | error
  | warn
  | info
  | debug
  | trace
  deriving DecidableEq, Repr, Inhabited

namespace Level

def all : List Level := [.error, .warn, .info, .debug, .trace]

/-- The place of a level, from the most urgent one. -/
def rank : Level → Nat
  | .error => 1
  | .warn => 2
  | .info => 3
  | .debug => 4
  | .trace => 5

def label : Level → String
  | .error => "ERROR"
  | .warn => "WARN"
  | .info => "INFO"
  | .debug => "DEBUG"
  | .trace => "TRACE"

/-- The name of a level on the command line. -/
def name : Level → String
  | .error => "error"
  | .warn => "warn"
  | .info => "info"
  | .debug => "debug"
  | .trace => "trace"

def ofName? (s : String) : Option Level :=
  all.find? fun l => l.name == s

theorem ofName?_name (l : Level) : ofName? l.name = some l := by
  cases l <;> decide

end Level

/-- The target of the loader's own records. -/
def ownTarget : String := "loader"

/-- The target of messages forwarded from the BPF library, which end with a newline already. -/
def libraryTarget : String := "libbpf"

structure Record where
  level : Level
  target : String
  message : String
  deriving DecidableEq, Repr

namespace Record

def error (message : String) : Record := ⟨.error, ownTarget, message⟩

def warn (message : String) : Record := ⟨.warn, ownTarget, message⟩

def debug (message : String) : Record := ⟨.debug, ownTarget, message⟩

end Record

end ProbeLoader.Log
