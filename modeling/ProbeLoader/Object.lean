import ProbeLoader.Host

/-!
# Objects

A loaded BPF object as a module. Its programs have names and section titles that may be any
bytes, while the loader speaks of programs by name, as text. A program is looked up by its bytes
and the reference to it holds its name with the invalid parts replaced; attaching looks the
reference up again. So a program whose name is not text can be found by its title and then not be
attached. Of the calls that the loader makes, an object sees those that reach a program, a link
or the object as a whole.
-/

namespace ProbeLoader

structure ObjectProgram where
  name : List UInt8
  title : List UInt8
  deriving DecidableEq, Repr

/-- A loaded object, and which operations on it fail. -/
structure Object where
  programs : List ObjectProgram
  attachFailure : Hook → Option Chain
  /-- By the path as it is shown. -/
  pinFailure : String → Option Chain

namespace ObjectProgram

/-- The reference that the loader gets to a program. -/
def ref (p : ObjectProgram) : ProgramRef := ⟨Utf8.lossy p.name⟩

end ObjectProgram

namespace Object

def named? (o : Object) (name : String) : Option ObjectProgram :=
  o.programs.find? fun p => p.name == Utf8.encode name

def titled? (o : Object) (title : String) : Option ObjectProgram :=
  o.programs.find? fun p => p.title == Utf8.encode title

def unknownProgram (p : ProgramRef) : Chain :=
  .ofMessage s!"Couldn't get program {p.name}"

def host (o : Object) : Host where
  find name := (o.named? name).map ObjectProgram.ref
  findByTitle title := (o.titled? title).map ObjectProgram.ref
  names := o.programs.map fun p => p.ref.name
  attachFailure p hook :=
    match o.named? p.name with
    | none => some (unknownProgram p)
    | some _ => o.attachFailure hook
  pinFailure _ path := o.pinFailure path.shown

/-- What an object and its links are asked to do. -/
inductive Request where
  | openFile (path : Path)
  | load
  | attach (program : ObjectProgram) (hook : Hook)
  | pin (path : Path)
  | disconnect
  | detach
  | close
  deriving DecidableEq, Repr

/-- What a call of the loader asks of a loaded object. Looking programs up asks nothing, and a
handed-over object is left alone. -/
def requests (o : Object) : Call → List Request
  | .attach p hook => ((o.named? p.name).map fun program => .attach program hook).toList
  | .pin _ path => [.pin path]
  | .disconnect _ => [.disconnect]
  | .detach _ => [.detach]
  | .close => [.close]
  | _ => []

structure Loading where
  requests : List Request
  log : List Log.Record
  result : Except Chain Object

def Loading.module (l : Loading) : ProbeLoader.Loading :=
  ⟨l.log, match l.result with
    | .ok o => .ok o.host
    | .error chain => .error chain⟩

end Object

end ProbeLoader
