import ProbeLoader.Object

/-!
# Calls to the BPF library

What is asked of an object goes to the library that loaded it. The library has its own idea of
hook points: a tracepoint lies in a category, one that the library knows by itself or any other
by its name, and a kprobe is said to be one on return or not before its symbol is named. Links and
objects are given up by dropping them.
-/

namespace ProbeLoader

inductive TracepointCategory where
  | known (name : String)
  | custom (name : String)
  deriving DecidableEq, Repr

inductive LibraryCall where
  | openFile (path : Path)
  | load
  | attachTracepoint (program : ObjectProgram) (category : TracepointCategory) (name : String)
  | attachKprobe (program : ObjectProgram) (retprobe : Bool) (symbol : String)
  | pin (path : Path)
  | disconnect
  /-- A link is dropped that was not disconnected. -/
  | detach
  /-- The object is dropped. -/
  | close
  deriving DecidableEq, Repr

namespace ObjectProgram

def attachTracepoint (p : ObjectProgram) (group name : String) : LibraryCall :=
  .attachTracepoint p (.custom group) name

def attachKprobe (p : ObjectProgram) (symbol : String) (retprobe : Bool) : LibraryCall :=
  .attachKprobe p retprobe symbol

/-- The call that attaches a program to a hook point. -/
def attachTo (p : ObjectProgram) : Hook → LibraryCall
  | .tracepoint group name => p.attachTracepoint group name
  | .kprobe symbol => p.attachKprobe symbol false
  | .kretprobe symbol => p.attachKprobe symbol true

end ObjectProgram

namespace Object

def Request.libraryCall : Request → LibraryCall
  | .openFile path => .openFile path
  | .load => .load
  | .attach program hook => program.attachTo hook
  | .pin path => .pin path
  | .disconnect => .disconnect
  | .detach => .detach
  | .close => .close

/-- What the calls of the loader ask of the library behind a loaded object. -/
def libraryCalls (o : Object) (calls : List Call) : List LibraryCall :=
  calls.flatMap fun c => (o.requests c).map Request.libraryCall

end Object

end ProbeLoader
