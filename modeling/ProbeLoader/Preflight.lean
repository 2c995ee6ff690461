import ProbeLoader.Directive
import ProbeLoader.Files
import ProbeLoader.Log.Record

/-!
# Checks before attaching

Loading and attaching take capabilities, and links can be pinned on a BPF file system only. Before
anything is attached, the process is asked for its capabilities and each directory that a link
shall be pinned in is asked too, and what will not work is warned about; nothing is stopped by it.
Directories that agree component by component are one, spelled as it was given last, and the
warnings come in the order of paths.
-/

namespace ProbeLoader.Preflight

/-- What is said about capabilities that are missing. The one for administration covers the others,
which are not asked for if it is in effect. -/
def missing (has : Capability → Except String Bool) : Except String (List String) := do
  if ← has .sysAdmin then
    return []
  let load := "Missing CAP_BPF (or CAP_SYS_ADMIN): the object will likely fail to load."
  let attach := "Missing CAP_PERFMON (or CAP_SYS_ADMIN): probes will likely fail to attach."
  let hasBpf ← has .bpf
  let hasPerfmon ← has .perfmon
  return (if hasBpf then [] else [load]) ++ (if hasPerfmon then [] else [attach])

def capabilityWarnings (has : Capability → Except String Bool) : List String :=
  match missing has with
  | .ok messages => messages
  | .error e => [s!"Could not check capabilities: {e}"]

def here : Path := .ofString "."

def directory? (path : Path) : Option Path :=
  path.parent?.map fun p => if p.bytes.isEmpty then here else p

/-- Puts a path into an ascending list; it takes the place of a path equal to it. -/
def insert (p : Path) : List Path → List Path
  | [] => [p]
  | q :: qs =>
    match p.order q with
    | .lt => p :: q :: qs
    | .eq => p :: qs
    | .gt => q :: insert p qs

/-- The directories of the pin paths, each one once, in ascending order. -/
def directories (ds : List Directive) : List Path :=
  (ds.filterMap fun d => directory? d.pinPath).foldl (fun ps p => insert p ps) []

def warning? (isBpf : Path → Except OsError Bool) (dir : Path) : Option String :=
  match isBpf dir with
  | .ok true => none
  | .ok false =>
    some (s!"{dir.shown} is not on a BPF filesystem (e.g. /sys/fs/bpf): " ++
      "pinning there will fail.")
  | .error e => some s!"Cannot use {dir.shown} for pinning: {e.symbol}"

def warnings (isBpf : Path → Except OsError Bool) (ds : List Directive) : List String :=
  (directories ds).filterMap (warning? isBpf)

/-- The records about pin directories. -/
def check (isBpf : Path → Except OsError Bool) (ds : List Directive) : List Log.Record :=
  (warnings isBpf ds).map .warn

/-- The records of all checks, those of the capabilities first. -/
def records (files : Files) (ds : List Directive) : List Log.Record :=
  (capabilityWarnings files.capable).map .warn ++ check files.isBpf ds

end ProbeLoader.Preflight
