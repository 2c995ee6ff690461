import ProbeLoader.Files
import ProbeLoader.Object
import ProbeLoader.Object.Json

/-!
# Object manifests

An object as a file: a JSON text that lists its programs and says what opening, loading,
attaching and pinning come to. Texts that need not be UTF-8 may be given in hexadecimal. Opening
and loading may print messages, which the log gets at levels of its own: what the BPF library
prints as information is of interest only when debugging.
-/

namespace ProbeLoader

/-- The levels of messages printed while an object is opened and loaded. -/
inductive PrintLevel where
  | warn
  | info
  | debug
  deriving DecidableEq, Repr

namespace PrintLevel

def all : List PrintLevel := [.warn, .info, .debug]

def name : PrintLevel → String
  | .warn => "warn"
  | .info => "info"
  | .debug => "debug"

def ofName? (s : String) : Option PrintLevel := all.find? fun l => l.name == s

def logLevel : PrintLevel → Log.Level
  | .warn => .warn
  | .info => .debug
  | .debug => .trace

end PrintLevel

structure Manifest where
  object : Object
  openPrint : List (PrintLevel × String)
  openFailure : Option Chain
  loadPrint : List (PrintLevel × String)
  loadFailure : Option Chain

namespace Manifest

/-- The bytes that pairs of hexadecimal digits spell. -/
def hexBytes? : List Char → Option (List UInt8)
  | [] => some []
  | a :: b :: rest => do
    let a ← Json.hexDigit? a
    let b ← Json.hexDigit? b
    let bytes ← hexBytes? rest
    return UInt8.ofNat (a * 16 + b) :: bytes
  | _ => none

/-- A text: a string, or an object with its bytes in hexadecimal. -/
def bytes? : Json → Option (List UInt8)
  | .string s => some (Utf8.encode s)
  | j => do
    let hex ← (j.member? "hex").bind Json.string?
    hexBytes? hex.toList

def text? (j : Json) : Option String := (bytes? j).map Utf8.lossy

def chain? (j : Json) : Option Chain := Chain.ofList? (j.items.filterMap text?)

def program? (j : Json) : Option ObjectProgram :=
  match j.items with
  | [name, title] => do
    let name ← bytes? name
    let title ← bytes? title
    return ⟨name, title⟩
  | _ => none

def print? (j : Json) : Option (PrintLevel × String) :=
  match j.items with
  | [level, message] => do
    let level ← (level.string?).bind PrintLevel.ofName?
    let message ← text? message
    return (level, message)
  | _ => none

/-- The failures of a table by key. -/
def failures (table : Option Json) (key : String) : Option Chain :=
  (table.bind (Json.member? key)).bind chain?

def list (j : Option Json) : List Json := (j.map Json.items).getD []

def ofJson (j : Json) : Manifest where
  object :=
    { programs := (list (j.member? "programs")).filterMap program?
      attachFailure := fun hook => failures (j.member? "attach_fail") hook.key
      pinFailure := failures (j.member? "pin_fail") }
  openPrint := (list (j.member? "open_print")).filterMap print?
  openFailure := (j.member? "open_error").bind chain?
  loadPrint := (list (j.member? "load_print")).filterMap print?
  loadFailure := (j.member? "load_error").bind chain?

def ofBytes? (bytes : List UInt8) : Option Manifest :=
  ((Utf8.decode? bytes).bind Json.parse?).map ofJson

/-- Why the file at a path gives no object. -/
def cannotOpen (path : Path) (cause : String) : Chain :=
  ⟨s!"failed to open object from `{path.shown}`", [cause]⟩

def read (files : Files) (path : Path) : Except Chain Manifest :=
  match files.openFile path with
  | .error e => .error (cannotOpen path e.message)
  | .ok stream =>
    match stream.failure with
    | some message => .error (cannotOpen path message)
    | none =>
      match ofBytes? stream.bytes with
      | none => .error (cannotOpen path "invalid object")
      | some m => .ok m

def forwarded (p : PrintLevel × String) : Log.Record :=
  ⟨p.1.logLevel, Log.libraryTarget, p.2⟩

def openContext : String := "Failed to open BPF object"

def loadContext : String := "Failed to load BPF object"

def load (files : Files) (path : Path) : Object.Loading :=
  match read files path with
  | .error chain => ⟨[.openFile path], [], .error (chain.within openContext)⟩
  | .ok m =>
    let opened := m.openPrint.map forwarded
    match m.openFailure with
    | some chain => ⟨[.openFile path], opened, .error (chain.within openContext)⟩
    | none =>
      let log := opened ++ m.loadPrint.map forwarded
      match m.loadFailure with
      | some chain => ⟨[.openFile path, .load], log, .error (chain.within loadContext)⟩
      | none => ⟨[.openFile path, .load], log, .ok m.object⟩

end Manifest

end ProbeLoader
