import ProbeLoader.Host
import ProbeLoader.Directive.Failure

/-!
# Links

The operations on a loaded module. A name is resolved to a program, first among the names and
then among the section titles; a program is attached to the hook point a target names, which
makes a link; and a link is persisted by pinning it. A pinned link is disconnected and outlives
the loader. A link that could not be pinned is dropped at once, which detaches it.
-/

namespace ProbeLoader

/-- What the operations on a module have come to: how many links were made so far, and the paths
links were pinned at, the latest first. -/
structure Session where
  links : Nat
  pinned : List Path
  deriving DecidableEq, Repr, Inhabited

def Session.fresh : Session := ⟨0, []⟩

/-- What one operation comes to. -/
structure Outcome (α : Type) where
  result : Except DirectiveError α
  session : Session
  trace : Trace

namespace Link

/-- The program that a directive refers to. -/
def resolve (h : Host) (s : Session) (name : String) : Outcome ProgramRef :=
  match h.find name with
  | some p => ⟨.ok p, s, [.call (.find name)]⟩
  | none =>
    match h.findByTitle name with
    | some p =>
      ⟨.ok p, s, [.call (.find name), .call (.findByTitle name),
        .log (.debug s!"Program '{name}' found by section title (program '{p.name}')")]⟩
    | none =>
      ⟨.error (.programNotFound name h.names), s,
        [.call (.find name), .call (.findByTitle name), .call .names]⟩

def attachedLine (hook : Hook) : String := s!"  ✓ Attached to {hook.shown}"

/-- Attaches a program to a hook point. -/
def attachAt (h : Host) (s : Session) (p : ProgramRef) (hook : Hook) : Outcome LinkId :=
  match h.attachFailure p hook with
  | some chain => ⟨.error (.attachFailed hook chain), s, [.call (.attach p hook)]⟩
  | none =>
    ⟨.ok (s.links + 1), { s with links := s.links + 1 },
      [.call (.attach p hook), .say (attachedLine hook)]⟩

/-- Attaches a program to the hook point that a target names. -/
def attach (h : Host) (s : Session) (p : ProgramRef) (kind : ProbeKind) (target : String) :
    Outcome LinkId :=
  match Hook.ofTarget kind target with
  | .error e => ⟨.error (.invalidTarget kind target e.message), s, []⟩
  | .ok hook => attachAt h s p hook

def pinnedLine (path : Path) : String := s!"  ✓ Link pinned at {path.shown}"

/-- Pins a link, or drops it if it cannot be pinned. -/
def persist (h : Host) (s : Session) (link : LinkId) (path : Path) : Outcome Unit :=
  match h.pinFailure s.pinned path with
  | some chain =>
    ⟨.error (.pinFailed path chain), s, [.call (.pin link path), .call (.detach link)]⟩
  | none =>
    ⟨.ok (), { s with pinned := path :: s.pinned },
      [.call (.pin link path), .call (.disconnect link), .say (pinnedLine path)]⟩

/-- Resolves, attaches and persists as a directive asks, up to the first failure. -/
def process (h : Host) (s : Session) (d : Directive) : Outcome Unit :=
  let resolved := resolve h s d.programName
  match resolved.result with
  | .error e => ⟨.error e, s, resolved.trace⟩
  | .ok p =>
    let attached := attach h s p d.kind d.target
    match attached.result with
    | .error e => ⟨.error e, attached.session, resolved.trace ++ attached.trace⟩
    | .ok link =>
      let persisted := persist h attached.session link d.pinPath
      { persisted with trace := resolved.trace ++ attached.trace ++ persisted.trace }

end Link

end ProbeLoader
