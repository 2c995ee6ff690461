import ProbeLoader.CommandLine.Help
import ProbeLoader.Log.Console
import ProbeLoader.Object.Manifest

/-!
# The program as a whole

From the arguments of the command line to the exit code. The program ends with 0 if it was asked
for a text about itself, or if at least one link was pinned and handed over; with 1 for a mistake
in the arguments, for a log that cannot be set up and for a job that failed, whose error is then the
last record of the log.
-/

namespace ProbeLoader

structure Invocation where
  /-- The arguments, without the name of the program. -/
  args : List Arguments.Raw
  terminal : Log.Terminal
  files : Files
  stdin : Stream

inductive Ending where
  | told (text : String)
  | refused (e : UsageError)
  /-- The log could not be set up. -/
  | unlogged (e : Log.SetUpError)
  /-- A job was run under a console. -/
  | ran (console : Log.Console) (job : Job) (result : JobResult)

namespace Invocation

def world (i : Invocation) : World where
  load path := (Manifest.load i.files path).module
  files := i.files
  stdin := i.stdin

def console (i : Invocation) (o : Options) : Log.Console :=
  ⟨o.logLevel, i.terminal.usesColors⟩

def run (i : Invocation) : Ending :=
  match Arguments.read i.args with
  | .error (.help long) => .told (Help.text Help.ownName long)
  | .error .version => .told Help.versionText
  | .error (.mistake e) => .refused e
  | .ok o =>
    match Log.setUp none i.terminal o.logLevel.name with
    | .error e => .unlogged e
    | .ok console => .ran console o.job (o.job.run i.world)

/-- Options that were read lead to a job, for their level is one that the log can be set up for. -/
theorem run_of_read {i : Invocation} {o : Options} (hread : Arguments.read i.args = .ok o) :
    i.run = .ran (i.console o) o.job (o.job.run i.world) := by
  unfold run
  rw [hread]
  dsimp only
  rw [Log.setUp_name]
  rfl

end Invocation

namespace Ending

/-- The records of the log, with the error that ended a job as the last one. -/
def records : Ending → List Log.Record
  | .told _ => []
  | .refused _ => []
  | .unlogged _ => []
  | .ran _ _ r =>
    r.trace.records ++
      match r.result with
      | .ok _ => []
      | .error e => [.error e.message]

def exitCode : Ending → Nat
  | .told _ => 0
  | .refused _ => 1
  | .unlogged _ => 1
  | .ran _ _ r =>
    match r.result with
    | .ok _ => 0
    | .error _ => 1

def stdout : Ending → String
  | .told text => text
  | .refused _ => ""
  | .unlogged _ => ""
  | .ran _ _ r => r.trace.output

/-- Standard error, with all records stamped with the same text. A mistake in the arguments is told
here too, in words that are not settled. -/
def stderr (time : String) : Ending → String
  | .told _ => ""
  | .refused e => s!"error: {e.message}\n\n{Help.usage Help.ownName}"
  | .unlogged e => s!"Failed to set up logging: {e.message}\n"
  | e@(.ran console _ _) => console.render time e.records

/-- What the object of a job was asked to do, where objects are read from files. -/
def requests (files : Files) : Ending → List Object.Request
  | .told _ => []
  | .refused _ => []
  | .unlogged _ => []
  | .ran _ job r =>
    let loading := Manifest.load files job.object
    r.trace.calls.flatMap fun c =>
      match c, loading.result with
      | .load _, _ => loading.requests
      | c, .ok o => o.requests c
      | _, .error _ => []

end Ending

end ProbeLoader
