import ProbeLoader.Attachment
import ProbeLoader.Config.Reading
import ProbeLoader.Preflight

/-!
# Jobs

A job is one run of the loader: it loads a module, reads the configuration, checks capabilities and
pin directories if asked to, and attaches the directives. The first stage that fails ends the job,
and a module that was loaded is closed then. A job is a function of the world it runs in, which
says what loading an object gives, what the files hold and what stands on standard input.
-/

namespace ProbeLoader

inductive RunError where
  | moduleLoad (object : Path) (cause : Chain)
  | config (e : ConfigError)
  | noAttachment (total : Nat)
  deriving DecidableEq, Repr

namespace RunError

def message : RunError → String
  | .moduleLoad object cause => s!"{object.shown}: {cause.joined}"
  | .config e => e.message
  | .noAttachment total => s!"No probes were successfully attached (0/{total})"

def causes : RunError → List String
  | .moduleLoad _ cause => cause.messages
  | .config e => e.causes
  | .noAttachment _ => []

end RunError

/-- The result of a report: the summary, or that nothing was attached. -/
def RunReport.result (r : RunReport) : Except RunError RunSummary :=
  if r.summary.isSuccess then .ok r.summary else .error (.noAttachment r.summary.total)

/-- What a job depends on besides its own settings. -/
structure World where
  load : Path → Loading
  files : Files
  stdin : Stream

structure Job where
  object : Path
  config : ConfigSource
  cap : Option Nat
  preflight : Bool
  deriving DecidableEq, Repr

structure JobResult where
  result : Except RunError RunSummary
  trace : Trace

namespace Job

def banner (j : Job) : Trace :=
  [.say "eBPF Multi-Probe Loader", .say "========================",
    .say s!"Object file: {j.object.shown}", .say s!"Config file: {j.config.shown}", .say "",
    .say "Loading eBPF object file..."]

def loaded : Trace :=
  [.say "  ✓ eBPF object loaded successfully", .say ""]

def parsedLines (ds : List Directive) : Trace :=
  (ds.map fun d => .say s!"  Parsed: {d.shown}") ++
    [.say s!"  ✓ Found {ds.length} probe configuration(s)", .say ""]

/-- Opens and reads the configuration: the records of reading, and the directives. -/
def readConfig (w : World) (j : Job) : List Log.Record × Except ConfigError (List Directive) :=
  match j.config.open? w.files w.stdin with
  | .error e => ([], .error e)
  | .ok stream =>
    let reading := stream.reading j.config j.cap
    (reading.log, reading.result j.config)

/-- What a job does with a loaded module. -/
def proceed (w : World) (j : Job) (h : Host) : JobResult :=
  let config := j.readConfig w
  let reading := .say s!"Reading configuration from {j.config.shown}..." ::
    config.1.map Event.log
  match config.2 with
  | .error e => ⟨.error (.config e), reading ++ [.call .close]⟩
  | .ok ds =>
    let checks := if j.preflight then (Preflight.records w.files ds).map Event.log else []
    let attachment := attachAll h ds
    ⟨attachment.report.result, reading ++ parsedLines ds ++ checks ++ attachment.trace⟩

def run (w : World) (j : Job) : JobResult :=
  let loading := w.load j.object
  let start := j.banner ++ .call (.load j.object) :: loading.log.map Event.log
  match loading.result with
  | .error chain => ⟨.error (.moduleLoad j.object chain), start⟩
  | .ok h =>
    let rest := j.proceed w h
    { rest with trace := start ++ loaded ++ rest.trace }

end Job

end ProbeLoader
