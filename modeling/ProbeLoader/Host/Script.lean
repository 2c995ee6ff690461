import ProbeLoader.Host

/-!
# Scripted modules

A module that is given as data: its programs by name and section title, and which operations
fail and why. With exclusive pins, a path that a link was pinned at is taken.
-/

namespace ProbeLoader

structure Script where
  /-- The name and the section title of each program. -/
  programs : List (String × String)
  loadFailure : Option Chain
  attachFailure : Hook → Option Chain
  /-- By the path as it is shown. -/
  pinFailure : String → Option Chain
  exclusivePins : Bool

namespace Script

def alreadyPinned : Chain := .ofMessage "File exists (os error 17)"

def find (s : Script) (name : String) : Option ProgramRef :=
  (s.programs.find? fun p => p.1 == name).map fun p => ⟨p.1⟩

def findByTitle (s : Script) (title : String) : Option ProgramRef :=
  (s.programs.find? fun p => p.2 == title).map fun p => ⟨p.1⟩

/-- Whether exclusive pins forbid a path after others. -/
def isTaken (s : Script) (pinned : List Path) (path : Path) : Bool :=
  s.exclusivePins && pinned.any fun p => p.shown == path.shown

def host (s : Script) : Host where
  find := s.find
  findByTitle := s.findByTitle
  names := s.programs.map (·.1)
  attachFailure _ hook := s.attachFailure hook
  pinFailure pinned path :=
    (s.pinFailure path.shown).or (if s.isTaken pinned path then some alreadyPinned else none)

/-- A scripted module is loaded without a word. -/
def loading (s : Script) : Loading :=
  ⟨[], match s.loadFailure with
    | some chain => .error chain
    | none => .ok s.host⟩

end Script

end ProbeLoader
