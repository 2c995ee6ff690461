import ProbeLoader.Text.Digits
import ProbeLoader.CommandLine.Options

/-!
# Arguments

Reading the arguments of a command line from left to right. An option begins with `--` and has
its value behind `=` or as the next argument; other arguments are the object and the
configuration, and after a lone `--` all are. An argument that takes a value stays pending until
something else follows, and only then is its value looked at, so that of two mistakes the one in
an argument not yet settled may go unnoticed.
-/

namespace ProbeLoader.Arguments

abbrev Raw := List UInt8

inductive Slot where
  | object
  | config
  | logLevel
  | cap
  deriving DecidableEq, Repr

/-- An argument that is not settled yet; an option may still lack its value. -/
structure Pending where
  slot : Slot
  value : Option Raw
  deriving DecidableEq, Repr

structure Given where
  object : Option Path
  config : Option String
  logLevel : Option Log.Level
  cap : Option Nat
  noPreflight : Bool
  deriving DecidableEq, Repr

structure State where
  given : Given
  pending : Option Pending
  /-- How many arguments without a name were met. -/
  unnamed : Nat
  /-- Whether a lone `--` was met. -/
  literal : Bool
  deriving DecidableEq, Repr

def State.initial : State := ⟨⟨none, none, none, none, false⟩, none, 0, false⟩

def dash : UInt8 := 0x2D

def equals : UInt8 := 0x3D

/-- One more than the greatest number accepted. -/
def numberLimit : Nat := 18446744073709551616

def digits? (cs : List Char) : Option Nat :=
  if cs.isEmpty || !cs.all Char.isDigit then none
  else some (Text.ofDigits cs)

/-- The number that a value spells: decimal digits, after an optional plus sign. -/
def number? (s : String) : Option Nat :=
  let n? :=
    match s.toList with
    | '+' :: cs => digits? cs
    | cs => digits? cs
  n?.filter (· < numberLimit)

def mistake {α : Type} (e : UsageError) : Except Stop α := .error (.mistake e)

def store (g : Given) (slot : Slot) (value : Raw) : Except Stop Given :=
  match slot with
  | .object =>
    if value.isEmpty then mistake .invalidValue else .ok { g with object := some ⟨value⟩ }
  | .config =>
    match Utf8.decode? value with
    | none => mistake .invalidUtf8
    | some s => .ok { g with config := some s }
  | .logLevel =>
    if g.logLevel.isSome then mistake .repeated
    else
      match Utf8.decode? value with
      | none => mistake .invalidUtf8
      | some s =>
        match Log.Level.ofName? s with
        | none => mistake .invalidValue
        | some l => .ok { g with logLevel := some l }
  | .cap =>
    if g.cap.isSome then mistake .repeated
    else
      match Utf8.decode? value with
      | none => mistake .invalidUtf8
      | some s =>
        match number? s with
        | none => mistake .notANumber
        | some n => .ok { g with cap := some n }

/-- Settles the pending argument, if there is one. -/
def settle (s : State) : Except Stop State :=
  match s.pending with
  | none => .ok s
  | some ⟨_, none⟩ => mistake .invalidValue
  | some ⟨slot, some value⟩ =>
    match store s.given slot value with
    | .error e => .error e
    | .ok g => .ok { s with given := g, pending := none }

/-- An option that takes a value, which may stand behind `=`. -/
def valueOption (s : State) (slot : Slot) (attached : Option Raw) : Except Stop State :=
  match settle s with
  | .error e => .error e
  | .ok t =>
    match attached with
    | none => .ok { t with pending := some ⟨slot, none⟩ }
    | some value =>
      match store t.given slot value with
      | .error e => .error e
      | .ok g => .ok { t with given := g }

def noPreflight (s : State) : Except Stop State :=
  match settle s with
  | .error e => .error e
  | .ok t =>
    if t.given.noPreflight then mistake .repeated
    else .ok { t with given := { t.given with noPreflight := true } }

/-- A request for a text about the program ends the reading, unless the pending argument is
mistaken. -/
def stop (s : State) (what : Stop) : Except Stop State :=
  match settle s with
  | .error e => .error e
  | .ok _ => .error what

inductive Name where
  | logLevel
  | cap
  | noPreflight
  | help
  | version
  deriving DecidableEq, Repr

namespace Name

def all : List Name := [.logLevel, .cap, .noPreflight, .help, .version]

def spelling : Name → String
  | .logLevel => "log-level"
  | .cap => "max-directives"
  | .noPreflight => "no-preflight"
  | .help => "help"
  | .version => "version"

def ofSpelling? (raw : Raw) : Option Name :=
  all.find? fun n => Utf8.encode n.spelling == raw

end Name

/-- An argument that begins with `--` and goes on. -/
def long (s : State) (name : Raw) (attached : Option Raw) : Except Stop State :=
  match Name.ofSpelling? name with
  | none => mistake .unknownArgument
  | some .logLevel => valueOption s .logLevel attached
  | some .cap => valueOption s .cap attached
  | some .noPreflight => if attached.isSome then mistake .unexpectedValue else noPreflight s
  | some .help => if attached.isSome then mistake .unexpectedValue else stop s (.help true)
  | some .version => if attached.isSome then mistake .unexpectedValue else stop s .version

/-- An argument that begins with a single dash and goes on; its first letter decides. -/
def short (s : State) (letter : UInt8) : Except Stop State :=
  if letter = 'h'.toUInt8 then stop s (.help false)
  else if letter = 'V'.toUInt8 then stop s .version
  else mistake .unknownArgument

/-- An argument that is no option: the value of the pending option, the object or the
configuration. -/
def plain (s : State) (arg : Raw) : Except Stop State :=
  match s.literal, s.pending with
  | false, some ⟨slot, none⟩ => .ok { s with pending := some ⟨slot, some arg⟩ }
  | _, _ =>
    let slot? : Option Slot :=
      match s.unnamed with
      | 0 => some .object
      | 1 => some .config
      | _ => none
    match slot? with
    | none => mistake .unknownArgument
    | some slot =>
      match settle s with
      | .error e => .error e
      | .ok t => .ok { t with pending := some ⟨slot, some arg⟩, unnamed := t.unnamed + 1 }

/-- The name of an option and the value behind `=`. -/
def splitLong (arg : Raw) : Raw × Option Raw :=
  match arg.dropWhile (· != equals) with
  | [] => (arg, none)
  | _ :: value => (arg.takeWhile (· != equals), some value)

def step (s : State) (arg : Raw) : Except Stop State :=
  if s.literal then plain s arg
  else
    match arg with
    | [] => plain s arg
    | a :: rest =>
      if a ≠ dash then plain s arg
      else
        match rest with
        | [] => plain s arg
        | b :: rest =>
          if b ≠ dash then short s b
          else if rest.isEmpty then .ok { s with literal := true }
          else
            let (name, attached) := splitLong rest
            long s name attached

/-- What is asked for once all arguments are settled. -/
def conclude (g : Given) : Except Stop Options :=
  match g.object with
  | none => mistake .missingObject
  | some object =>
    .ok ⟨g.logLevel.getD Options.defaultLevel, g.cap, g.noPreflight, object,
      g.config.getD ConfigSource.defaultName⟩

def readAll : State → List Raw → Except Stop Options
  | s, [] =>
    match settle s with
    | .error e => .error e
    | .ok t => conclude t.given
  | s, arg :: args =>
    match step s arg with
    | .error e => .error e
    | .ok t => readAll t args

/-- Reads the arguments of a command line without the name of the program. -/
def read (args : List Raw) : Except Stop Options :=
  readAll .initial args

end ProbeLoader.Arguments
