import Std.Time.DateTime.Timestamp
import ProbeLoader.Files.Tree
import ProbeLoader.Program

/-!
# The command line

Runs the program on the files of this machine, over objects that manifests describe. What the
program may look at, the object, the configuration, the pin directories and the capabilities, is
looked at first; then the run is a function of it, and its events are shown in order.
-/

namespace ProbeLoader.CommandLine

def osError : IO.Error → OsError
  | .noFileOrDirectory .. => .noEntry
  | .permissionDenied .. => .accessDenied
  | .inappropriateType _ code _ => if code = 20 then .notDirectory else .isDirectory
  | .invalidArgument _ code _ => if code = 36 then .nameTooLong else .inputOutput
  | _ => .inputOutput

/-- Opens and reads a file; a directory can be opened only. -/
def openFile (path : Path) : IO (Except OsError Stream) := do
  try
    return .ok ⟨(← IO.FS.readBinFile path.shown).toList, none⟩
  catch e =>
    match osError e with
    | .isDirectory => return .ok ⟨[], some OsError.isDirectory.message⟩
    | e => return .error e

/-- The place the kernel mounts the BPF file system at. -/
def bpfRoot : String := "/sys/fs/bpf"

def isBpf (path : Path) : IO (Except OsError Bool) := do
  try
    let real := toString (← IO.FS.realPath path.shown)
    return .ok (real == bpfRoot || real.startsWith (bpfRoot ++ "/"))
  catch e => return .error (osError e)

/-- The place of a capability in the mask that the kernel keeps. -/
def capabilityBit : Capability → Nat
  | .sysAdmin => 21
  | .perfmon => 38
  | .bpf => 39

/-- The capabilities in effect, as the kernel shows them for the process. -/
def capabilities : IO (Capability → Except String Bool) := do
  try
    let lines := (← IO.FS.readFile "/proc/self/status").splitOn "\n"
    let shown := (lines.find? fun line => line.startsWith "CapEff:").getD ""
    let digits := shown.toList.drop "CapEff:\t".length |>.filterMap Json.hexDigit?
    let mask := digits.foldl (fun n digit => 16 * n + digit) 0
    return fun capability => .ok (mask.testBit (capabilityBit capability))
  catch e => return fun _ => .error (osError e).message

/-- What a job may look at. -/
def look (job : Job) (stdin : Stream) : IO Files := do
  let object ← openFile job.object
  let config ← match job.config with
    | .stdin => pure (Except.ok stdin)
    | .file path => openFile path
  let directives :=
    match config with
    | .ok stream => (stream.reading job.config job.cap).directives
    | .error _ => []
  let asked ← (Preflight.directories directives).mapM fun dir => do return (dir, ← isBpf dir)
  let capable ← capabilities
  return {
    openFile := fun path => if path = job.object then object else config
    isBpf := fun path => ((asked.find? fun a => a.1 = path).map (·.2)).getD (.error .noEntry)
    capable := capable }

def now : IO String := do
  let t ← Std.Time.Timestamp.now
  return Log.Console.timeOfDay ((t.toNanosecondsSinceUnixEpoch.val / 1000).toNat % 86400000000)

def showRecord (console : Log.Console) (r : Log.Record) : IO Unit := do
  IO.eprint (console.piece (← now) r)

def showEvent (console : Log.Console) : Event → IO Unit
  | .call _ => return
  | .say line => IO.println line
  | .log r => showRecord console r

def readStdin (input : IO.FS.Stream) : IO Stream := do
  return ⟨(← input.readBinToEnd).toList, none⟩

end ProbeLoader.CommandLine

open ProbeLoader CommandLine in
/-- Runs the program and ends with its exit code. -/
def main (args : List String) : IO UInt32 := do
  let raw := args.map Utf8.encode
  let terminal : Log.Terminal :=
    ⟨← (← IO.getStderr).isTty, ← IO.getEnv "TERM", (← IO.getEnv "NO_COLOR").isSome⟩
  let (files, stdin) ← match Arguments.read raw with
    | .ok o => do
      let job := o.job
      let stdin ← if job.config = .stdin then readStdin (← IO.getStdin) else pure ⟨[], none⟩
      pure (← look job stdin, stdin)
    | .error _ => pure ((FileTree.scratch [] []).view, ⟨[], none⟩)
  let ending := Invocation.run ⟨raw, terminal, files, stdin⟩
  match ending with
  | .ran console _ r =>
    r.trace.forM (showEvent console)
    match r.result with
    | .ok _ => pure ()
    | .error e => showRecord console (.error e.message)
  | _ =>
    IO.print ending.stdout
    IO.eprint (ending.stderr "")
  return ending.exitCode.toUInt32
