import ProbeLoader.Files

/-!
# Directory trees

A file system given as data: which files there are, with their bytes, and which directories. A
path is looked up segment by segment from the root or from the working directory; every segment,
an empty one too, needs a directory to be looked up in. Nothing lies on a BPF file system.
-/

namespace ProbeLoader

/-- A place in a directory tree: the names on the way from the root. -/
abbrev Location := List (List UInt8)

/-- A directory tree. All directories on the way to a place that is listed exist. -/
structure FileTree where
  files : List (Location × List UInt8)
  dirs : List Location
  workingDir : Location
  deriving Repr

inductive FileTree.Node where
  | file (bytes : List UInt8)
  | dir
  deriving DecidableEq, Repr

namespace FileTree

def nameLimit : Nat := 255

/-- The length that a path must stay below, in bytes. -/
def pathLimit : Nat := 4096

def node? (t : FileTree) (place : Location) : Option Node :=
  match t.files.find? fun f => f.1 == place with
  | some f => some (.file f.2)
  | none =>
    let places := t.workingDir :: t.dirs ++ t.files.map (·.1)
    if places.any fun p => place.isPrefixOf p then some .dir else none

/-- Looks segments up one after another, from a place that exists. -/
def walk (t : FileTree) : Location → Node → List (List UInt8) → Except OsError Node
  | _, node, [] => .ok node
  | _, .file _, _ :: _ => .error .notDirectory
  | place, .dir, segment :: rest =>
    if Path.isIdle segment then walk t place .dir rest
    else if segment = [Path.dot, Path.dot] then walk t place.dropLast .dir rest
    else if nameLimit < segment.length then .error .nameTooLong
    else
      match t.node? (place ++ [segment]) with
      | none => .error .noEntry
      | some node => walk t (place ++ [segment]) node rest

def lookUp (t : FileTree) (path : Path) : Except OsError Node :=
  if 0 ∈ path.bytes then .error .nulByte
  else if path.bytes = [] then .error .noEntry
  else if pathLimit ≤ path.bytes.length then .error .nameTooLong
  else
    let origin := if path.bytes.head? = some Path.slash then [] else t.workingDir
    t.walk origin .dir (Text.segments (· == Path.slash) path.bytes)

/-- Opening a directory works, and reading from it does not. -/
def openFile (t : FileTree) (path : Path) : Except OsError Stream :=
  match t.lookUp path with
  | .ok (.file bytes) => .ok ⟨bytes, none⟩
  | .ok .dir => .ok ⟨[], some OsError.isDirectory.message⟩
  | .error e => .error e

def isBpf (t : FileTree) (path : Path) : Except OsError Bool :=
  match t.lookUp path with
  | .ok _ => .ok false
  | .error e => .error e

/-- What is seen by a process that lacks no capability. -/
def view (t : FileTree) : Files := ⟨t.openFile, t.isBpf, fun _ => .ok true⟩

/-- The names on the way to a path below the working directory. -/
def placeOf (workingDir : Location) (path : Path) : Location :=
  workingDir ++ (Text.segments (· == Path.slash) path.bytes).filter fun s => !Path.isIdle s

/-- The working directory of a scratch tree. It has no name that a path could spell. -/
def scratchDir : Location := [[], []]

/-- A tree with nothing but files and directories below the working directory. -/
def scratch (files : List (Path × List UInt8)) (dirs : List Path) : FileTree where
  files := files.map fun f => (placeOf scratchDir f.1, f.2)
  dirs := dirs.map (placeOf scratchDir)
  workingDir := scratchDir

end FileTree

end ProbeLoader
