import ProbeLoader.Text.Utf8
import ProbeLoader.Log.Record

/-!
# The log on the console

How records look on standard error. The most talkative level to show and whether colours are
used are settled once; after that every record gives one piece of output that depends on nothing
else. Times are given by the caller, as text.
-/

namespace ProbeLoader.Log

/-- What is known about the terminal that standard error may be. -/
structure Terminal where
  isTerminal : Bool
  term : Option String
  noColor : Bool
  deriving DecidableEq, Repr, Inhabited

/-- Colours are used on a terminal that names its kind, unless it is a dumb one or the user
wants none. -/
def Terminal.usesColors (t : Terminal) : Bool :=
  t.isTerminal && !t.noColor &&
    match t.term with
    | some kind => kind != "dumb"
    | none => false

/-- The terminal as the environment describes it; a kind that is not text counts as none. -/
def Terminal.ofEnvironment (isTerminal : Bool) (term noColor : Option (List UInt8)) : Terminal :=
  ⟨isTerminal, term.bind Utf8.decode?, noColor.isSome⟩

/-- How the log is shown: up to which level, and whether in colour. -/
structure Console where
  maxLevel : Level
  colors : Bool
  deriving DecidableEq, Repr

namespace Console

def escape : Char := '\x1b'

/-- The control sequence that sets one attribute of the text after it. -/
def control (code : String) : String :=
  String.singleton escape ++ "[" ++ code ++ "m"

def reset : String := control "0"

def colorCode : Level → String
  | .error => "31"
  | .warn => "33"
  | .info => "34"
  | .debug => "36"
  | .trace => "37"

def enabled (c : Console) (l : Level) : Bool :=
  l.rank ≤ c.maxLevel.rank

def showsTime (c : Console) : Bool :=
  Level.debug.rank ≤ c.maxLevel.rank

def showsLevel (c : Console) (l : Level) : Bool :=
  l.rank ≤ Level.warn.rank || c.showsTime

/-- The name of a level, filled up to the longest one, and a space. -/
def levelField (l : Level) : String :=
  l.label ++ String.ofList (List.replicate (5 - l.label.length) ' ') ++ " "

def levelPart (c : Console) (l : Level) : String :=
  if c.colors then reset ++ control (colorCode l) ++ levelField l ++ reset else levelField l

def messagePart (r : Record) : String :=
  if r.target = libraryTarget then libraryTarget ++ ": " ++ r.message else r.message ++ "\n"

/-- What one record writes; `time` is the time it was logged at. -/
def piece (c : Console) (time : String) (r : Record) : String :=
  if c.enabled r.level then
    (if c.showsTime then time ++ " " else "") ++
      (if c.showsLevel r.level then c.levelPart r.level else "") ++ messagePart r
  else ""

/-- A number with zeros in front of it up to a width. -/
def padded (width n : Nat) : String :=
  let digits := (toString n).toList
  String.ofList (List.replicate (width - digits.length) '0' ++ digits)

/-- The time of day, in microseconds, as it stands in front of records. -/
def timeOfDay (micros : Nat) : String :=
  let seconds := micros / 1000000
  s!"{padded 2 (seconds / 3600)}:{padded 2 (seconds / 60 % 60)}:{padded 2 (seconds % 60)}." ++
    padded 6 (micros % 1000000)

/-- What a sequence of records writes, all stamped with the same text. -/
def render (c : Console) (time : String) (records : List Record) : String :=
  String.join (records.map (c.piece time))

theorem render_cons (c : Console) (time : String) (r : Record) (rs : List Record) :
    c.render time (r :: rs) = c.piece time r ++ c.render time rs := by
  simp [render]

theorem render_append (c : Console) (time : String) (rs ss : List Record) :
    c.render time (rs ++ ss) = c.render time rs ++ c.render time ss := by
  simp [render]

theorem piece_of_not_enabled {c : Console} {r : Record} (h : c.enabled r.level = false)
    (time : String) : c.piece time r = "" := by
  simp [piece, h]

end Console

inductive SetUpError where
  | invalidLevel (text : String)
  | alreadySetUp
  deriving DecidableEq, Repr

def SetUpError.message : SetUpError → String
  | .invalidLevel text => s!"Invalid log level: {text}"
  | .alreadySetUp =>
    "attempted to set a logger after the logging system was already initialized"

def parseLevel (text : String) : Except SetUpError Level :=
  match Level.ofName? text with
  | some l => .ok l
  | none => .error (.invalidLevel text)

/-- Sets the log up, which can be done once: `current` is the console in use, if any. -/
def setUp (current : Option Console) (terminal : Terminal) (level : String) :
    Except SetUpError Console :=
  match parseLevel level with
  | .error e => .error e
  | .ok l =>
    match current with
    | some _ => .error .alreadySetUp
    | none => .ok ⟨l, terminal.usesColors⟩

theorem parseLevel_name (l : Level) : parseLevel l.name = .ok l := by
  rw [parseLevel, Level.ofName?_name]

/-- Under the name of a level the log can be set up for the first time. -/
theorem setUp_name (terminal : Terminal) (l : Level) :
    setUp none terminal l.name = .ok ⟨l, terminal.usesColors⟩ := by
  rw [setUp, parseLevel_name]

end ProbeLoader.Log
