import ProbeLoader.Text.Blank
import ProbeLoader.Directive

/-!
# Lines of a configuration

A line is read without what ends it, its last line feeds and the carriage returns before them. It
is ignored when it begins with `#` or is blank. Any other line holds four words, the pin path, the
program name, the probe kind and the target, each within its length; the kind must be one of the
supported spellings. `parse` gives the directive of a line or the first of these rules that it
breaks.
-/

namespace ProbeLoader

/-- The four fields of a line. -/
inductive Field where
  | pinPath
  | programName
  | probeKind
  | target
  deriving DecidableEq, Repr

namespace Field

def name : Field → String
  | .pinPath => "pin_path"
  | .programName => "program_name"
  | .probeKind => "probe_kind"
  | .target => "target"

/-- The greatest length of a field, in bytes. -/
def limit : Field → Nat
  | .pinPath => 255
  | .programName => 63
  | .probeKind => 15
  | .target => 63

end Field

/-- Why a line was rejected. -/
inductive Rejection where
  | fieldCount (count : Nat)
  | fieldTooLong (field : Field) (length : Nat)
  | unsupportedKind (kind : String)
  | invalidUtf8
  deriving DecidableEq, Repr

def Rejection.message : Rejection → String
  | .fieldCount count =>
    s!"expected 4 fields (pin_path program_name probe_kind target), found {count}"
  | .fieldTooLong field length => s!"{field.name} is {length} bytes long (max {field.limit})"
  | .unsupportedKind kind =>
    s!"unsupported probe type '{kind}' (supported types: tracepoint, kprobe, kretprobe)"
  | .invalidUtf8 => "line is not valid UTF-8"

/-- A rejected line. -/
structure LineError where
  line : Nat
  reason : Rejection
  deriving DecidableEq, Repr

def LineError.message (e : LineError) : String :=
  s!"line {e.line}: {e.reason.message}"

namespace Line

/-- A line without the line feeds at its end and without the carriage returns before them. -/
def content (s : String) : String :=
  String.ofList (Text.dropEndWhile (· == '\r') (Text.dropEndWhile (· == '\n') s.toList))

/-- Whether a line holds no directive and no mistake either. -/
def isIgnored (s : String) : Bool :=
  s.toList.head? == some '#' || Text.isBlank s

/-- The rejection of a field that is too long. -/
def checkLength (field : Field) (value : String) : Option Rejection :=
  let length := (Utf8.encode value).length
  if length ≤ field.limit then none else some (.fieldTooLong field length)

/-- The directive that the words of a line spell out. -/
def ofWords (number : Nat) : List String → Except Rejection Directive
  | [pinPath, programName, kind, target] =>
    let tooLong :=
      (checkLength .pinPath pinPath).or <| (checkLength .programName programName).or <|
        (checkLength .probeKind kind).or <| checkLength .target target
    match tooLong with
    | some reason => .error reason
    | none =>
      match ProbeKind.ofName? kind with
      | none => .error (.unsupportedKind kind)
      | some k => .ok ⟨number, .ofString pinPath, programName, k, target⟩
  | ws => .error (.fieldCount ws.length)

/-- Reads a line; an ignored line gives no directive. -/
def parse (number : Nat) (s : String) : Except LineError (Option Directive) :=
  let line := content s
  if isIgnored line then .ok none
  else
    match ofWords number (Text.words line) with
    | .ok d => .ok (some d)
    | .error reason => .error ⟨number, reason⟩

/-- Reads the bytes of a line, which must be UTF-8 even in a comment. -/
def parseBytes (number : Nat) (bytes : List UInt8) : Except LineError (Option Directive) :=
  match Utf8.decode? bytes with
  | none => .error ⟨number, .invalidUtf8⟩
  | some s => parse number s

end Line

end ProbeLoader
