import ProbeLoader.Report

/-!
# Reports in use

The operations on a report, in any order. One of them records an outcome; the others ask, and leave
the report as it is.
-/

namespace ProbeLoader.RunReport

inductive Operation where
  | record (d : Directive) (outcome : Option DirectiveError)
  | summary
  | failures
  | print
  deriving DecidableEq, Repr

inductive Answer where
  | recorded
  | summary (s : RunSummary)
  | failures (fs : List (Directive × DirectiveError))
  | printed (t : Trace)
  deriving DecidableEq, Repr

def perform (r : RunReport) : Operation → Answer × RunReport
  | .record d outcome => (.recorded, r.record d outcome)
  | .summary => (.summary r.summary, r)
  | .failures => (.failures r.failures, r)
  | .print => (.printed r.print, r)

def performAll : RunReport → List Operation → List Answer × RunReport
  | r, [] => ([], r)
  | r, op :: ops =>
    let (answer, next) := r.perform op
    let (answers, last) := performAll next ops
    (answer :: answers, last)

end ProbeLoader.RunReport
