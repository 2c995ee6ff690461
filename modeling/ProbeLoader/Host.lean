import ProbeLoader.Chain
import ProbeLoader.Hook
import ProbeLoader.Log.Record

/-!
# The host of a run

A host is a loaded module as the loader sees it: its programs can be looked up, attached to hook
points, and the links that come of it can be pinned. What a host answers depends on the question
alone, except that pinning may depend on the paths pinned before. Everything a run does is an
event: a call to the host, a line of progress output or a record for the log.
-/

namespace ProbeLoader

structure ProgramRef where
  name : String
  deriving DecidableEq, Repr, Inhabited

/-- A loaded module. -/
structure Host where
  /-- The program of a name. -/
  find : String → Option ProgramRef
  /-- The program of a section title. -/
  findByTitle : String → Option ProgramRef
  names : List String
  /-- Why a program cannot be attached to a hook point, if it cannot. -/
  attachFailure : ProgramRef → Hook → Option Chain
  /-- Why a link cannot be pinned at a path after others were pinned, if it cannot. -/
  pinFailure : (pinned : List Path) → Path → Option Chain

/-- What loading an object gives: messages for the log, and the module or why there is none. -/
structure Loading where
  log : List Log.Record
  result : Except Chain Host

/-- Links are numbered from 1 in the order of attaching. -/
abbrev LinkId := Nat

/-- A call to a module or to one of its links. -/
inductive Call where
  | load (object : Path)
  | find (name : String)
  | findByTitle (title : String)
  | names
  | attach (program : ProgramRef) (hook : Hook)
  | pin (link : LinkId) (path : Path)
  | disconnect (link : LinkId)
  | detach (link : LinkId)
  | release
  | close
  deriving DecidableEq, Repr

inductive Event where
  | call (c : Call)
  | say (line : String)
  | log (r : Log.Record)
  deriving DecidableEq, Repr

namespace Event

def call? : Event → Option Call
  | .call c => some c
  | _ => none

def line? : Event → Option String
  | .say line => some line
  | _ => none

def record? : Event → Option Log.Record
  | .log r => some r
  | _ => none

end Event

abbrev Trace := List Event

namespace Trace

def calls (t : Trace) : List Call := t.filterMap Event.call?

def lines (t : Trace) : List String := t.filterMap Event.line?

def records (t : Trace) : List Log.Record := t.filterMap Event.record?

/-- The progress output, each line ended by a newline. -/
def output (t : Trace) : String :=
  String.join (t.lines.map fun line => line ++ "\n")

@[simp] theorem calls_nil : calls [] = [] := rfl

@[simp] theorem lines_nil : lines [] = [] := rfl

@[simp] theorem records_nil : records [] = [] := rfl

@[simp] theorem calls_cons_call (c : Call) (t : Trace) : calls (.call c :: t) = c :: calls t :=
  rfl

@[simp] theorem calls_cons_say (line : String) (t : Trace) : calls (.say line :: t) = calls t :=
  rfl

@[simp] theorem calls_cons_log (r : Log.Record) (t : Trace) : calls (.log r :: t) = calls t :=
  rfl

@[simp] theorem lines_cons_call (c : Call) (t : Trace) : lines (.call c :: t) = lines t :=
  rfl

@[simp] theorem lines_cons_say (line : String) (t : Trace) :
    lines (.say line :: t) = line :: lines t := rfl

@[simp] theorem lines_cons_log (r : Log.Record) (t : Trace) : lines (.log r :: t) = lines t :=
  rfl

@[simp] theorem records_cons_call (c : Call) (t : Trace) :
    records (.call c :: t) = records t := rfl

@[simp] theorem records_cons_say (line : String) (t : Trace) :
    records (.say line :: t) = records t := rfl

@[simp] theorem records_cons_log (r : Log.Record) (t : Trace) :
    records (.log r :: t) = r :: records t := rfl

@[simp] theorem calls_append (t u : Trace) : calls (t ++ u) = calls t ++ calls u :=
  List.filterMap_append

@[simp] theorem lines_append (t u : Trace) : lines (t ++ u) = lines t ++ lines u :=
  List.filterMap_append

@[simp] theorem records_append (t u : Trace) : records (t ++ u) = records t ++ records u :=
  List.filterMap_append

@[simp] theorem calls_map_log (rs : List Log.Record) : calls (rs.map .log) = [] := by
  induction rs <;> simp_all

@[simp] theorem lines_map_log (rs : List Log.Record) : lines (rs.map .log) = [] := by
  induction rs <;> simp_all

@[simp] theorem records_map_log (rs : List Log.Record) : records (rs.map .log) = rs := by
  induction rs <;> simp_all

section

variable {α : Type} (line : α → String) (items : List α)

theorem calls_map_say : calls (items.map fun a => .say (line a)) = [] := by
  induction items <;> simp_all

theorem lines_map_say : lines (items.map fun a => .say (line a)) = items.map line := by
  induction items <;> simp_all

theorem records_map_say : records (items.map fun a => .say (line a)) = [] := by
  induction items <;> simp_all

end

end Trace

end ProbeLoader
