import ProbeLoader.Text.Utf8

/-!
# Paths

A path is any byte string. It has a lead, the root or a leading `.`, and after it segments
between slashes, of which the empty ones and further `.` say nothing. The rest are its
components, and paths are ordered component by component: the root before a leading `.`, before
`..`, before names, names by their bytes. The parent of a path keeps the spelling of what it
keeps.
-/

namespace ProbeLoader

structure Path where
  bytes : List UInt8
  deriving DecidableEq, Repr, Inhabited

namespace Path

def slash : UInt8 := 0x2F

def dot : UInt8 := 0x2E

def ofString (s : String) : Path := ⟨Utf8.encode s⟩

def shown (p : Path) : String := Utf8.lossy p.bytes

/-- A part of a path that says something. -/
inductive Component where
  | root
  | current
  | parent
  | name (bytes : List UInt8)
  deriving DecidableEq, Repr

/-- What a path begins with before its segments: the root, a leading `.`, or nothing. -/
def lead (p : Path) : List UInt8 :=
  match p.bytes with
  | [] => []
  | b :: rest =>
    if b = slash then [slash]
    else if b = dot ∧ (rest = [] ∨ rest.head? = some slash) then [dot]
    else []

/-- The segments after the lead. -/
def body (p : Path) : List (List UInt8) :=
  Text.segments (· == slash) (p.bytes.drop p.lead.length)

/-- Whether a segment after the lead says nothing. -/
def isIdle (segment : List UInt8) : Bool :=
  segment == [] || segment == [dot]

def Component.ofSegment (segment : List UInt8) : Component :=
  if segment = [dot, dot] then .parent else .name segment

def leadComponents (p : Path) : List Component :=
  if p.lead = [slash] then [.root] else if p.lead = [dot] then [.current] else []

def components (p : Path) : List Component :=
  p.leadComponents ++ (p.body.filter fun s => !isIdle s).map Component.ofSegment

def trimEnd (body : List (List UInt8)) : List (List UInt8) :=
  (body.reverse.dropWhile isIdle).reverse

/-- The path without its last component; the root and the empty path have no parent. -/
def parent? (p : Path) : Option Path :=
  match trimEnd p.body with
  | [] => if p.lead = [dot] then some ⟨[]⟩ else none
  | body => some ⟨p.lead ++ [slash].intercalate (trimEnd body.dropLast)⟩

/-- The last component, if it is a name. -/
def fileName? (p : Path) : Option (List UInt8) :=
  match p.components.getLast? with
  | some (.name bytes) => some bytes
  | _ => none

/-- The place of a component in the order of components, as bytes. -/
def Component.key : Component → List UInt8
  | .root => [0]
  | .current => [1]
  | .parent => [2]
  | .name bytes => 3 :: bytes

def order (p q : Path) : Ordering :=
  List.compareLex (List.compareLex compare) (p.components.map Component.key)
    (q.components.map Component.key)

end Path

end ProbeLoader
