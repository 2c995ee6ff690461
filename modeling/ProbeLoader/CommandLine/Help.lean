import ProbeLoader.Text.Plain
import ProbeLoader.CommandLine.Arguments

/-!
# Help

The texts about the program. Both help texts are laid out from the same entries: the short one in
two columns, the long one with the description of each entry on lines of its own.
-/

namespace ProbeLoader.Help

/-- The name the program goes by when its command line does not tell. -/
def ownName : String := "loader"

def versionText : String := s!"{ownName} 0.1.0\n"

structure Entry where
  form : String
  shortDescription : String
  longDescription : String
  /-- The value it has when it is not given. -/
  fallback : Option String
  /-- The values it can have, where they can be listed. -/
  choices : List String

namespace Entry

def remarks (e : Entry) : List String :=
  (e.fallback.map fun v => s!"[default: {v}]").toList ++
    if e.choices.isEmpty then []
    else ["[possible values: " ++ ", ".intercalate e.choices ++ "]"]

def shortLine (width : Nat) (e : Entry) : String :=
  "  " ++ e.form ++ String.ofList (List.replicate (width - e.form.length) ' ') ++ "  " ++
    " ".intercalate (e.shortDescription :: e.remarks) ++ "\n"

/-- The indentation of a description on lines of its own. -/
def indent : String := String.ofList (List.replicate 10 ' ')

def longLines (e : Entry) : String :=
  let remarks := if e.remarks.isEmpty then [] else "" :: e.remarks
  "  " ++ e.form ++ "\n" ++
    String.join ((e.longDescription :: remarks).map fun line => indent ++ line ++ "\n")

end Entry

def arguments : List Entry :=
  let config := "Path to the configuration file, or '-' to read it from stdin"
  let object := "Path to the compiled eBPF object file (e.g. /ebpf-vdiff.o)"
  [⟨"<OBJECT>", object, object, none, []⟩,
    ⟨"[CONFIG]", config, config, some ConfigSource.defaultName, []⟩]

def options : List Entry :=
  let cap := "Only use the first N probe configurations, ignoring the rest of the file"
  let checks := "Do not check capabilities and pinning directories before attaching"
  [⟨"    --log-level <LOG_LEVEL>", "Log level", "Log level", some Options.defaultLevel.name,
      Log.Level.all.map Log.Level.name⟩,
    ⟨"    --max-directives <N>", cap, cap, none, []⟩,
    ⟨"    --no-preflight", checks, checks, none, []⟩,
    ⟨"-h, --help", "Print help (see more with '--help')", "Print help (see a summary with '-h')",
      none, []⟩,
    ⟨"-V, --version", "Print version", "Print version", none, []⟩]

def summary : String :=
  "Attach the programs of a BPF object to kernel hooks and pin the resulting links"

def details : String :=
  "Each line of the configuration describes one program to attach and where to pin its link. " ++
  "Pinned links stay active once the loader exits. The run succeeds if at least one probe was " ++
  "attached and pinned."

def configFormat : String :=
  "Config file format (one probe per line):\n" ++
  "  pin_path program_name probe_type probe_target\n" ++
  "\n" ++
  "probe_type is one of tracepoint, kprobe or kretprobe. Tracepoint targets are\n" ++
  "given as group:name, kprobe and kretprobe targets are kernel symbols.\n" ++
  "program_name is the name of a program in the object or, for older objects,\n" ++
  "its section title. Lines starting with '#' are comments.\n" ++
  "\n" ++
  "Example config:\n" ++
  "  /sys/fs/bpf/vdiff_kmalloc kretprobe/__kmalloc kretprobe __kmalloc\n" ++
  "  /sys/fs/bpf/vdiff_cache kretprobe/kmem_cache_alloc kretprobe kmem_cache_alloc\n" ++
  "  /sys/fs/bpf/vdiff_write tracepoint/sys_enter_write tracepoint syscalls:sys_enter_write\n"

/-- How a program of the given name is called. The name is shown plain, so that it cannot
disturb the terminal. -/
def usage (name : String) : String :=
  "Usage: " ++ Text.plain name ++ " [OPTIONS] <OBJECT> [CONFIG]\n"

def shortSection (entries : List Entry) : String :=
  let width := (entries.map fun e => e.form.length).foldl max 0
  String.join (entries.map (Entry.shortLine width))

def longSection (entries : List Entry) : String :=
  "\n".intercalate (entries.map Entry.longLines)

def text (name : String) (long : Bool) : String :=
  let about := if long then summary ++ ".\n\n" ++ details ++ "\n" else summary ++ "\n"
  let lay := if long then longSection else shortSection
  "\n".intercalate
    [about, usage name, "Arguments:\n" ++ lay arguments, "Options:\n" ++ lay options,
      configFormat]

/-- The name a command line gives the program: the last component of its first argument. -/
def programName (argument : Option (List UInt8)) : String :=
  (((argument.map Path.mk).bind Path.fileName?).bind Utf8.decode?).getD ownName

end ProbeLoader.Help
