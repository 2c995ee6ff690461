import ProbeLoader.Config.Source

/-!
# What a run sees of the system

Files can be opened for reading, and a directory can be asked whether it lies on a BPF file
system. Either may fail with an error of the operating system, which is told in two ways: in full
where a file could not be opened or read, and by its symbol where a directory could not be asked.
Besides, the process can be asked which capabilities are in effect.
-/

namespace ProbeLoader

inductive OsError where
  | noEntry
  | notDirectory
  | isDirectory
  | nameTooLong
  | nulByte
  | accessDenied
  | inputOutput
  /-- Any other error, by the two ways it is told in. -/
  | other (message symbol : String)
  deriving DecidableEq, Repr

namespace OsError

def message : OsError → String
  | .noEntry => "No such file or directory (os error 2)"
  | .notDirectory => "Not a directory (os error 20)"
  | .isDirectory => "Is a directory (os error 21)"
  | .nameTooLong => "File name too long (os error 36)"
  | .nulByte => "file name contained an unexpected NUL byte"
  | .accessDenied => "Permission denied (os error 13)"
  | .inputOutput => "Input/output error (os error 5)"
  | .other message _ => message

/-- The error by its symbol. A path with a NUL byte is an invalid argument. -/
def symbol : OsError → String
  | .noEntry => "ENOENT: No such file or directory"
  | .notDirectory => "ENOTDIR: Not a directory"
  | .isDirectory => "EISDIR: Is a directory"
  | .nameTooLong => "ENAMETOOLONG: File name too long"
  | .nulByte => "EINVAL: Invalid argument"
  | .accessDenied => "EACCES: Permission denied"
  | .inputOutput => "EIO: Input/output error"
  | .other _ symbol => symbol

end OsError

/-- The capabilities that loading and attaching may take. -/
inductive Capability where
  | sysAdmin
  | bpf
  | perfmon
  deriving DecidableEq, Repr

/-- What a run sees of the file system, and what the process may do. -/
structure Files where
  openFile : Path → Except OsError Stream
  /-- Whether a path lies on a BPF file system. -/
  isBpf : Path → Except OsError Bool
  /-- Whether a capability is in effect. -/
  capable : Capability → Except String Bool

/-- Opens a source; standard input can always be opened. -/
def ConfigSource.open? (files : Files) (stdin : Stream) (source : ConfigSource) :
    Except ConfigError Stream :=
  match source with
  | .stdin => .ok stdin
  | .file path =>
    match files.openFile path with
    | .ok stream => .ok stream
    | .error e => .error (.cannotOpen source.shown e.message)

end ProbeLoader
