import ProbeLoader.Config.Source
import ProbeLoader.Directive.Line
import ProbeLoader.Log.Record

/-!
# Reading a configuration

The directives of a stream, in order. A rejected line is warned about and skipped. With a cap,
reading stops at the first line after the directive that reached it, which is why a cap that is
reached on the last line goes unnoticed. A failure to read on loses all directives read before.
-/

namespace ProbeLoader

/-- What was read: the warnings, the directives, and the failure that ended the reading. -/
structure Reading where
  log : List Log.Record
  directives : List Directive
  failure : Option String
  deriving DecidableEq, Repr

namespace Reading

def skipped (source : ConfigSource) (e : LineError) : Log.Record :=
  .warn s!"Skipping {source.shown} {e.message}"

def capped (source : ConfigSource) (count : Nat) : Log.Record :=
  .warn (s!"Only the first {count} probe configuration(s) are used, " ++
    s!"ignoring the rest of {source.shown}")

/-- Whether a cap leaves no room after so many directives. -/
def isFull (cap : Option Nat) (count : Nat) : Bool :=
  cap.any (· ≤ count)

/-- Reads on from line `number` after `count` directives. -/
def ofItems (source : ConfigSource) (cap : Option Nat) :
    (count number : Nat) → List Stream.Item → Reading
  | _, _, [] => ⟨[], [], none⟩
  | _, _, .failure message :: _ => ⟨[], [], some message⟩
  | count, number, .line bytes :: rest =>
    if isFull cap count then ⟨[capped source count], [], none⟩
    else
      match Line.parseBytes number bytes with
      | .ok (some d) =>
        let r := ofItems source cap (count + 1) (number + 1) rest
        { r with directives := d :: r.directives }
      | .ok none => ofItems source cap count (number + 1) rest
      | .error e =>
        let r := ofItems source cap count (number + 1) rest
        { r with log := skipped source e :: r.log }

/-- The directives that were read, of which there must be one. -/
def result (source : ConfigSource) (r : Reading) : Except ConfigError (List Directive) :=
  match r.failure with
  | some message => .error (.cannotRead source.shown message)
  | none =>
    match r.directives with
    | [] => .error (.noDirectives source.shown)
    | ds => .ok ds

end Reading

/-- Reads the directives of a stream, at most `cap` of them. -/
def Stream.reading (s : Stream) (source : ConfigSource) (cap : Option Nat) : Reading :=
  Reading.ofItems source cap 0 1 s.items

def Stream.directives (s : Stream) (source : ConfigSource) (cap : Option Nat) :
    Except ConfigError (List Directive) :=
  (s.reading source cap).result source

end ProbeLoader
