import ProbeLoader.Log.Console

/-!
# Writing the log

Records go to standard error through a buffer that all of them share, piece by piece: the time,
the level and the message of a record, with colours set and reset in between, and then the buffer
is emptied. Whether colours appear is settled in two places. The log asks for them on a terminal
of a known kind; the stream gives them where the environment does not speak against it. Standard
error itself takes whatever is passed on to it.
-/

namespace ProbeLoader.Log

/-- What the environment says about standard error. -/
structure Environment where
  isTerminal : Bool
  term : Option (List UInt8)
  noColor : Option (List UInt8)
  deriving DecidableEq, Repr

namespace Environment

def terminal (e : Environment) : Terminal := .ofEnvironment e.isTerminal e.term e.noColor

/-- Whether the log asks for colours; it reads the kind of the terminal as text. -/
def asksForColors (e : Environment) : Bool :=
  e.isTerminal &&
    match e.term.bind Utf8.decode? with
    | some kind => kind != "dumb"
    | none => false

/-- Whether the stream gives colours when asked; it compares bytes. -/
def givesColors (e : Environment) : Bool :=
  match e.term with
  | some kind => kind != Utf8.encode "dumb" && e.noColor.isNone
  | none => false

end Environment

/-- A stream behind a buffer: what has been passed on, and what is still held. -/
structure Outlet where
  capacity : Nat
  givesColors : Bool
  passed : String
  held : String
  deriving DecidableEq, Repr

namespace Outlet

def empty (capacity : Nat) (givesColors : Bool) : Outlet := ⟨capacity, givesColors, "", ""⟩

def contents (o : Outlet) : String := o.passed ++ o.held

def room (o : Outlet) : Nat := o.capacity - o.held.utf8ByteSize

def flush (o : Outlet) : Outlet := { o with passed := o.passed ++ o.held, held := "" }

def hold (o : Outlet) (text : String) : Outlet := { o with held := o.held ++ text }

def pass (o : Outlet) (text : String) : Outlet := { o with passed := o.passed ++ text }

/-- A text for which there is room is held. Otherwise room is made, and a text that would fill the
whole buffer is passed on at once. -/
def write (o : Outlet) (text : String) : Outlet :=
  if text.utf8ByteSize < o.room then o.hold text
  else
    let ready := if o.room < text.utf8ByteSize then o.flush else o
    if o.capacity ≤ text.utf8ByteSize then ready.pass text else ready.hold text

def setColor (o : Outlet) (l : Level) : Outlet :=
  if o.givesColors then o.write (Console.reset ++ Console.control (Console.colorCode l)) else o

def resetColor (o : Outlet) : Outlet :=
  if o.givesColors then o.write Console.reset else o

def writeTime (c : Console) (time : String) (o : Outlet) : Outlet :=
  if c.showsTime then o.write (time ++ " ") else o

def writeLevel (c : Console) (l : Level) (o : Outlet) : Outlet :=
  if c.showsLevel l then
    if c.colors then ((o.setColor l).write (Console.levelField l)).resetColor
    else o.write (Console.levelField l)
  else o

def writeMessage (r : Record) (o : Outlet) : Outlet :=
  if r.target = libraryTarget then (o.write (libraryTarget ++ ": ")).write r.message
  else (o.write r.message).write "\n"

/-- Writes one record, which no other record can come in between of. -/
def put (c : Console) (time : String) (o : Outlet) (r : Record) : Outlet :=
  if c.enabled r.level then
    (writeMessage r (writeLevel c r.level (writeTime c time o))).flush
  else o

def putAll (c : Console) (time : String) (o : Outlet) (rs : List Record) : Outlet :=
  rs.foldl (put c time) o

end Outlet

namespace Environment

/-- What records leave on standard error, all stamped with the same text. -/
def stderr (e : Environment) (capacity : Nat) (level : Level) (time : String)
    (rs : List Record) : String :=
  (Outlet.putAll ⟨level, e.asksForColors⟩ time (.empty capacity e.givesColors) rs).passed

end Environment

end ProbeLoader.Log
