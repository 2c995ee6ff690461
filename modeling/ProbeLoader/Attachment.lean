import ProbeLoader.Link
import ProbeLoader.Report

/-!
# Attaching directives

The directives are processed in order over one module. A failure is recorded and the next
directive follows; at the end the module is handed over to the kernel if one directive succeeded,
and closed otherwise.
-/

namespace ProbeLoader

namespace Attachment

/-- How a failure is logged. -/
def failureLog (d : Directive) (e : DirectiveError) : List Log.Record :=
  let available :=
    match e with
    | .programNotFound _ names =>
      .error "Available programs:" :: names.map fun name => .error s!"  - {name}"
    | _ => []
  .error e.message :: available ++
    [.error s!"  ✗ Failed to attach probe: {d.programName} (line {d.line})"]

def announcement (index total : Nat) (d : Directive) : String :=
  s!"[{index}/{total}] Attaching probe: {d.shown}"

/-- The failure of an operation, if it failed. -/
def failure? {α : Type} : Except DirectiveError α → Option DirectiveError
  | .ok _ => none
  | .error e => some e

def failureEvents (d : Directive) : Option DirectiveError → Trace
  | none => []
  | some e => (failureLog d e).map .log

/-- What processing a list of directives comes to. -/
structure Progress where
  outcomes : List (Directive × Option DirectiveError)
  session : Session
  trace : Trace

/-- Processes directives in order, of which the first is number `index` of `total`. -/
def processAll (h : Host) (total : Nat) : (index : Nat) → Session → List Directive → Progress
  | _, s, [] => ⟨[], s, []⟩
  | index, s, d :: ds =>
    let o := Link.process h s d
    let failure := failure? o.result
    let rest := processAll h total (index + 1) o.session ds
    ⟨(d, failure) :: rest.outcomes, rest.session,
      .say (announcement index total d) :: o.trace ++ failureEvents d failure ++ [.say ""] ++
        rest.trace⟩

/-- Every directive has its outcome, in order. -/
theorem map_fst_outcomes_processAll (h : Host) (total index : Nat) (s : Session)
    (ds : List Directive) : (processAll h total index s ds).outcomes.map (·.1) = ds := by
  induction ds generalizing index s with
  | nil => rfl
  | cons d ds ih => simp [processAll, ih]

/-- What is said when the module is handed over. -/
def farewell (succeeded : Nat) : Trace :=
  [.say "", .say s!"eBPF program loaded successfully with {succeeded} active probe(s)",
    .say "Probe links have been pinned and will remain active."]

end Attachment

/-- What attaching a list of directives comes to: the report on them, and the events up to the
hand-over or the closing of the module. -/
structure Attachment where
  report : RunReport
  trace : Trace

open Attachment in
/-- Attaches and pins all directives over a loaded module. -/
def attachAll (h : Host) (ds : List Directive) : Attachment :=
  let progress := processAll h ds.length 1 .fresh ds
  let report : RunReport := ⟨progress.outcomes⟩
  let ending :=
    if report.summary.isSuccess then .call .release :: farewell report.summary.succeeded
    else [.call .close]
  ⟨report, .say "Attaching probes..." :: progress.trace ++ report.print ++ ending⟩

end ProbeLoader
