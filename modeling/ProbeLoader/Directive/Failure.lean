import ProbeLoader.Chain
import ProbeLoader.Hook

/-!
# Failures of a directive

Why one directive came to nothing. Such a failure is recorded and shown, and never ends a run.
A message names what was refused and, where the host gave a chain of causes, its outermost
message; the whole chain stays available as the causes.
-/

namespace ProbeLoader

/-- Why one directive came to nothing. -/
inductive DirectiveError where
  | programNotFound (name : String) (available : List String)
  | invalidTarget (kind : ProbeKind) (target : String) (reason : String)
  | attachFailed (hook : Hook) (cause : Chain)
  | pinFailed (path : Path) (cause : Chain)
  deriving DecidableEq, Repr

namespace DirectiveError

def message : DirectiveError → String
  | .programNotFound name _ => s!"Failed to find program with name or section: {name}"
  | .invalidTarget kind target reason => s!"Invalid {kind.name} target '{target}': {reason}"
  | .attachFailed hook cause => s!"Failed to attach to {hook.shown}: {cause.outermost}"
  | .pinFailed path cause => s!"Failed to pin link at {path.shown}: {cause.outermost}"

/-- The messages of the host behind a failure, the outermost first. -/
def causes : DirectiveError → List String
  | .programNotFound .. => []
  | .invalidTarget .. => []
  | .attachFailed _ cause => cause.messages
  | .pinFailed _ cause => cause.messages

end DirectiveError

end ProbeLoader
