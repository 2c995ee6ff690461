import ProbeLoader.Host
import ProbeLoader.Directive.Failure

/-!
# Reports

The outcomes of the directives of a run, in order, and what is said about them at the end. A run
counts as a success as soon as one directive succeeded.
-/

namespace ProbeLoader

/-- How a run went as a whole. -/
inductive RunStatus where
  | complete
  | partly
  | failed
  deriving DecidableEq, Repr

/-- How many directives there were and how many of them succeeded. -/
structure RunSummary where
  total : Nat
  succeeded : Nat
  deriving DecidableEq, Repr

namespace RunSummary

def status (s : RunSummary) : RunStatus :=
  if s.succeeded = 0 then .failed
  else if s.succeeded < s.total then .partly
  else .complete

def isSuccess (s : RunSummary) : Bool :=
  s.status != .failed

theorem isSuccess_iff (s : RunSummary) : s.isSuccess = true ↔ 0 < s.succeeded := by
  unfold isSuccess status
  split
  · simp [*]
  · split <;> simp <;> omega

end RunSummary

/-- The outcome of each directive, in order; no error means success. -/
structure RunReport where
  outcomes : List (Directive × Option DirectiveError)
  deriving DecidableEq, Repr

namespace RunReport

def empty : RunReport := ⟨[]⟩

def record (r : RunReport) (d : Directive) (outcome : Option DirectiveError) : RunReport :=
  ⟨r.outcomes ++ [(d, outcome)]⟩

def summary (r : RunReport) : RunSummary where
  total := r.outcomes.length
  succeeded := r.outcomes.countP fun o => o.2.isNone

@[simp] theorem total_record (r : RunReport) (d : Directive) (outcome : Option DirectiveError) :
    (r.record d outcome).summary.total = r.summary.total + 1 := by
  simp [summary, record]

@[simp] theorem succeeded_record (r : RunReport) (d : Directive)
    (outcome : Option DirectiveError) :
    (r.record d outcome).summary.succeeded =
      r.summary.succeeded + if outcome.isNone then 1 else 0 := by
  simp [summary, record, List.countP_append, List.countP_cons]

def failures (r : RunReport) : List (Directive × DirectiveError) :=
  r.outcomes.filterMap fun o => o.2.map fun e => (o.1, e)

@[simp] theorem failures_record (r : RunReport) (d : Directive)
    (outcome : Option DirectiveError) :
    (r.record d outcome).failures = r.failures ++ (outcome.map fun e => (d, e)).toList := by
  cases outcome <;> simp [failures, record]

def failureLine (f : Directive × DirectiveError) : String :=
  s!"  ✗ line {f.1.line}: {f.1.programName}: {f.2.message}"

def failureLines (r : RunReport) : Trace :=
  r.failures.map fun f => .say (failureLine f)

def someFailed : Log.Record :=
  .warn "Some probes failed to attach. Check kernel symbols and permissions."

def noneAttached : Log.Record :=
  .error "No probes were successfully attached"

/-- What is said about the outcomes at the end of a run. -/
def print (r : RunReport) : Trace :=
  [.say "Attachment Summary:", .say "==================",
    .say s!"Successfully attached: {r.summary.succeeded}/{r.summary.total} probes"] ++
    match r.summary.status with
    | .complete => []
    | .partly => .log someFailed :: r.failureLines
    | .failed => .log noneAttached :: r.failureLines

end RunReport

end ProbeLoader
