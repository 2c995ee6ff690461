import ProbeLoader.Hook

/-!
# Asking a module to attach

A module is asked in one of two ways to attach a program: at the event of a tracepoint group, or at
a kernel symbol, of which it is told whether the program shall run on return.
-/

namespace ProbeLoader

/-- What a module is told about the point that it shall attach a program to. -/
inductive Placement where
  | tracepoint (group name : String)
  | kprobe (symbol : String) (retprobe : Bool)
  deriving DecidableEq, Repr

def Hook.placement : Hook → Placement
  | .tracepoint group name => .tracepoint group name
  | .kprobe symbol => .kprobe symbol false
  | .kretprobe symbol => .kprobe symbol true

end ProbeLoader
