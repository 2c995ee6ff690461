import ProbeLoader.Path

/-!
# Sources of a configuration

A configuration is read from a file or from standard input, which a lone `-` stands for. What a
source delivers is a stream: bytes, and after them the end of the input or a failure to read on.
-/

namespace ProbeLoader

/-- Where directives are read from. -/
inductive ConfigSource where
  | file (path : Path)
  | stdin
  deriving DecidableEq, Repr

namespace ConfigSource

/-- The configuration that is used when none is named. -/
def defaultName : String := "/config.txt"

def ofName (name : String) : ConfigSource :=
  if name = "-" then .stdin else .file (.ofString name)

def default : ConfigSource := .file (.ofString defaultName)

def shown : ConfigSource → String
  | .file path => path.shown
  | .stdin => "<stdin>"

end ConfigSource

/-- Why no directives came from a source. -/
inductive ConfigError where
  | cannotOpen (source : String) (cause : String)
  | cannotRead (source : String) (cause : String)
  | noDirectives (source : String)
  deriving DecidableEq, Repr

namespace ConfigError

/-- The source as it is shown. -/
def source : ConfigError → String
  | .cannotOpen source _ => source
  | .cannotRead source _ => source
  | .noDirectives source => source

def message : ConfigError → String
  | .cannotOpen source cause => s!"Failed to open config file {source}: {cause}"
  | .cannotRead source cause => s!"Failed to read config file {source}: {cause}"
  | .noDirectives source => s!"No valid probe configurations found in {source}"

def causes : ConfigError → List String
  | .cannotOpen _ cause => [cause]
  | .cannotRead _ cause => [cause]
  | .noDirectives _ => []

end ConfigError

/-- What can be read from an open source: its bytes, and the failure that ends them if the end
of the input does not. -/
structure Stream where
  bytes : List UInt8
  failure : Option String
  deriving DecidableEq, Repr, Inhabited

namespace Stream

/-- What reading line by line meets. -/
inductive Item where
  | line (bytes : List UInt8)
  | failure (message : String)
  deriving DecidableEq, Repr

def lineFeed : UInt8 := 0x0A

/-- The lines of a stream. A line feed ends a line; bytes after the last one are a line only if
the input ends there, and are lost in a failure. -/
def items (s : Stream) : List Item :=
  let parts := Text.segments (· == lineFeed) s.bytes
  let rest := parts.getLast?.getD []
  parts.dropLast.map .line ++
    match s.failure with
    | some message => [.failure message]
    | none => if rest.isEmpty then [] else [.line rest]

end Stream

end ProbeLoader
