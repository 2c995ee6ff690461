import ProbeLoader.Link

/-!
# Links held

The operations in any order, over a table of the links that were attached and not persisted yet.
Persisting takes a link out of the table, whatever comes of it. When the table is given up, the
links still held are detached in the order of attaching, and then the module is closed.
-/

namespace ProbeLoader

inductive Operation where
  | resolve (name : String)
  | attach (program : ProgramRef) (kind : ProbeKind) (target : String)
  | persist (link : LinkId) (path : Path)
  deriving DecidableEq, Repr

inductive Answer where
  | resolved (program : ProgramRef)
  | attached (link : LinkId)
  | persisted
  | noLink
  | failed (e : DirectiveError)
  deriving DecidableEq, Repr

/-- A module in use: its session and the links held, in the order of attaching. -/
structure LinkTable where
  session : Session
  held : List LinkId
  deriving DecidableEq, Repr

namespace LinkTable

def empty : LinkTable := ⟨.fresh, []⟩

def perform (h : Host) (t : LinkTable) : Operation → Answer × LinkTable × Trace
  | .resolve name =>
    let o := Link.resolve h t.session name
    match o.result with
    | .ok p => (.resolved p, t, o.trace)
    | .error e => (.failed e, t, o.trace)
  | .attach p kind target =>
    let o := Link.attach h t.session p kind target
    match o.result with
    | .ok link => (.attached link, ⟨o.session, t.held ++ [link]⟩, o.trace)
    | .error e => (.failed e, { t with session := o.session }, o.trace)
  | .persist link path =>
    if link ∈ t.held then
      let o := Link.persist h t.session link path
      let rest : LinkTable := ⟨o.session, t.held.erase link⟩
      match o.result with
      | .ok () => (.persisted, rest, o.trace)
      | .error e => (.failed e, rest, o.trace)
    else (.noLink, t, [])

def performAll (h : Host) : LinkTable → List Operation → List (Answer × Trace) × LinkTable
  | t, [] => ([], t)
  | t, op :: ops =>
    let (answer, next, trace) := t.perform h op
    let (answers, last) := performAll h next ops
    ((answer, trace) :: answers, last)

/-- What giving the table up does. -/
def giveUp (t : LinkTable) : Trace :=
  t.held.map (fun link => .call (.detach link)) ++ [.call .close]

end LinkTable

end ProbeLoader
