import ProbeLoader.Path

/-!
# Directives

A directive asks for one program to be attached to one hook point and for the resulting link to
be pinned at a path. It remembers the line of the configuration it was read from.
-/

namespace ProbeLoader

/-- The hook classes a directive can name. -/
inductive ProbeKind where
  | tracepoint
  | kprobe
  | kretprobe
  deriving DecidableEq, Repr, Inhabited

namespace ProbeKind

def all : List ProbeKind := [.tracepoint, .kprobe, .kretprobe]

def name : ProbeKind → String
  | .tracepoint => "tracepoint"
  | .kprobe => "kprobe"
  | .kretprobe => "kretprobe"

def ofName? (s : String) : Option ProbeKind :=
  all.find? fun k => k.name == s

theorem ofName?_name (k : ProbeKind) : ofName? k.name = some k := by
  cases k <;> decide

theorem name_of_ofName? {s : String} {k : ProbeKind} (h : ofName? s = some k) : k.name = s := by
  unfold ofName? at h
  simpa using List.find?_some h

end ProbeKind

/-- A request to attach one program and to pin its link. -/
structure Directive where
  /-- The line it was read from, the first line being 1. -/
  line : Nat
  pinPath : Path
  /-- The name of the program, or the title of its section. -/
  programName : String
  kind : ProbeKind
  /-- `group:name` for a tracepoint, a kernel symbol for the other kinds. -/
  target : String
  deriving DecidableEq, Repr, Inhabited

def Directive.shown (d : Directive) : String :=
  s!"{d.programName} -> {d.kind.name}:{d.target} (pin: {d.pinPath.shown})"

end ProbeLoader
