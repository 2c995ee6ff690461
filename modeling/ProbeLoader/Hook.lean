import ProbeLoader.Directive

/-!
# Hook points

The points of the kernel a program is attached to. A tracepoint is named by a group and an event,
which the target of a directive gives as `group:name`, cut at its first colon; the other kinds
take a kernel symbol and the target is that symbol.
-/

namespace ProbeLoader

/-- A point of the kernel that programs can be attached to. -/
inductive Hook where
  | tracepoint (group name : String)
  | kprobe (symbol : String)
  | kretprobe (symbol : String)
  deriving DecidableEq, Repr, Inhabited

namespace Hook

def kind : Hook → ProbeKind
  | .tracepoint .. => .tracepoint
  | .kprobe _ => .kprobe
  | .kretprobe _ => .kretprobe

/-- The target that names a hook point of its kind. -/
def target : Hook → String
  | .tracepoint group name => group ++ ":" ++ name
  | .kprobe symbol => symbol
  | .kretprobe symbol => symbol

def shown (h : Hook) : String :=
  h.kind.name ++ ": " ++ h.target

/-- The name of a hook point in the description of a module. -/
def key (h : Hook) : String :=
  h.kind.name ++ ":" ++ h.target

inductive TargetError where
  | noColon
  | emptyPart
  deriving DecidableEq, Repr

def TargetError.message : TargetError → String
  | .noColon => "expected 'group:name'"
  | .emptyPart => "empty tracepoint group or name"

def ofTracepointTarget (target : String) : Except TargetError Hook :=
  let cs := target.toList
  match cs.dropWhile (· != ':') with
  | [] => .error .noColon
  | _ :: name =>
    let group := cs.takeWhile (· != ':')
    if group.isEmpty || name.isEmpty then .error .emptyPart
    else .ok (.tracepoint (String.ofList group) (String.ofList name))

/-- The hook point that a target names for a probe kind. -/
def ofTarget (kind : ProbeKind) (target : String) : Except TargetError Hook :=
  match kind with
  | .tracepoint => ofTracepointTarget target
  | .kprobe => .ok (.kprobe target)
  | .kretprobe => .ok (.kretprobe target)

end Hook

end ProbeLoader
