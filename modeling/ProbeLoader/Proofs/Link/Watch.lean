import ProbeLoader.Proofs.Attachment.Calls

/-!
# Watching the calls of a run

A watch follows the calls of a run without knowing the loader. It keeps what the module itself
remembers, which is how many links it made and where links were pinned, it counts the directives
that were begun, and it says what is due for the newest link. Its steps are the protocol of links:
a link that was made is pinned by the very next call, at the path of the directive in hand, and the
call after that disconnects it if the pin was not refused and detaches it if it was. Nothing else
may happen while something is due. The calls of every run of directives pass the watch.
-/

namespace ProbeLoader

/-- What a module remembers of a call: attaching makes the next link and pinning takes a path,
unless they are refused. -/
def Session.after (h : Host) (s : Session) : Call → Session
  | .attach p hook =>
    if h.attachFailure p hook = none then { s with links := s.links + 1 } else s
  | .pin _ path =>
    if h.pinFailure s.pinned path = none then { s with pinned := path :: s.pinned } else s
  | _ => s

def Session.afterAll (h : Host) (s : Session) (calls : List Call) : Session :=
  calls.foldl (Session.after h) s

/-- Whether a call looks a name up, which is how every directive begins. -/
def Call.isFind : Call → Bool
  | .find _ => true
  | _ => false

inductive Due where
  | nothing
  | pin
  | disconnect
  | detach
  deriving DecidableEq, Repr

structure Watch where
  session : Session
  /-- How many directives were begun. -/
  begun : Nat
  due : Due
  deriving DecidableEq, Repr

namespace Watch

variable {h : Host} {ds : List Directive}

/-- The calls that are in order, and where they lead. -/
inductive Step (h : Host) (ds : List Directive) : Watch → Call → Watch → Prop where
  | find {s : Session} {n : Nat} {d : Directive} : ds[n]? = some d →
      Step h ds ⟨s, n, .nothing⟩ (.find d.programName) ⟨s, n + 1, .nothing⟩
  | findByTitle {s : Session} {n : Nat} {title : String} :
      Step h ds ⟨s, n, .nothing⟩ (.findByTitle title) ⟨s, n, .nothing⟩
  | names {s : Session} {n : Nat} : Step h ds ⟨s, n, .nothing⟩ .names ⟨s, n, .nothing⟩
  | refused {s : Session} {n : Nat} {p : ProgramRef} {hook : Hook} {chain : Chain} :
      h.attachFailure p hook = some chain →
      Step h ds ⟨s, n, .nothing⟩ (.attach p hook) ⟨s, n, .nothing⟩
  | attached {s : Session} {n : Nat} {p : ProgramRef} {hook : Hook} :
      h.attachFailure p hook = none →
      Step h ds ⟨s, n, .nothing⟩ (.attach p hook) ⟨{ s with links := s.links + 1 }, n, .pin⟩
  | unpinned {s : Session} {n : Nat} {d : Directive} {chain : Chain} : ds[n]? = some d →
      h.pinFailure s.pinned d.pinPath = some chain →
      Step h ds ⟨s, n + 1, .pin⟩ (.pin s.links d.pinPath) ⟨s, n + 1, .detach⟩
  | pinned {s : Session} {n : Nat} {d : Directive} : ds[n]? = some d →
      h.pinFailure s.pinned d.pinPath = none →
      Step h ds ⟨s, n + 1, .pin⟩ (.pin s.links d.pinPath)
        ⟨{ s with pinned := d.pinPath :: s.pinned }, n + 1, .disconnect⟩
  | disconnect {s : Session} {n : Nat} :
      Step h ds ⟨s, n, .disconnect⟩ (.disconnect s.links) ⟨s, n, .nothing⟩
  | detach {s : Session} {n : Nat} :
      Step h ds ⟨s, n, .detach⟩ (.detach s.links) ⟨s, n, .nothing⟩
  | release {s : Session} {n : Nat} : Step h ds ⟨s, n, .nothing⟩ .release ⟨s, n, .nothing⟩
  | close {s : Session} {n : Nat} : Step h ds ⟨s, n, .nothing⟩ .close ⟨s, n, .nothing⟩

inductive Run (h : Host) (ds : List Directive) : Watch → List Call → Watch → Prop where
  | nil (w : Watch) : Run h ds w [] w
  | cons {w v u : Watch} {c : Call} {cs : List Call} :
      Step h ds w c v → Run h ds v cs u → Run h ds w (c :: cs) u

theorem Run.single {w v : Watch} {c : Call} (hc : Step h ds w c v) : Run h ds w [c] v :=
  .cons hc (.nil v)

theorem Run.append {w v u : Watch} {cs es : List Call} (hcs : Run h ds w cs v)
    (hes : Run h ds v es u) : Run h ds w (cs ++ es) u := by
  induction hcs with
  | nil => exact hes
  | cons hc _ ih => exact .cons hc (ih hes)

theorem Run.split {w u : Watch} {cs es : List Call} (hrun : Run h ds w (cs ++ es) u) :
    ∃ v, Run h ds w cs v ∧ Run h ds v es u := by
  induction cs generalizing w with
  | nil => exact ⟨w, .nil w, hrun⟩
  | cons c cs ih =>
    cases hrun with
    | cons hc hrest =>
      obtain ⟨v, hcs, hes⟩ := ih hrest
      exact ⟨v, .cons hc hcs, hes⟩

theorem Step.session_eq {w v : Watch} {c : Call} (hc : Step h ds w c v) :
    v.session = w.session.after h c := by
  cases hc with
  | refused hf => simp [Session.after, hf]
  | attached hf => simp [Session.after, hf]
  | unpinned _ hf => simp [Session.after, hf]
  | pinned _ hf => simp [Session.after, hf]
  | _ => rfl

theorem Run.session_eq {w v : Watch} {cs : List Call} (hrun : Run h ds w cs v) :
    v.session = Session.afterAll h w.session cs := by
  induction hrun with
  | nil => rfl
  | cons hc _ ih =>
    rw [ih, hc.session_eq]
    rfl

theorem Step.begun_eq {w v : Watch} {c : Call} (hc : Step h ds w c v) :
    v.begun = w.begun + [c].countP Call.isFind := by
  cases hc <;> rfl

theorem Run.begun_eq {w v : Watch} {cs : List Call} (hrun : Run h ds w cs v) :
    v.begun = w.begun + cs.countP Call.isFind := by
  induction hrun with
  | nil => rfl
  | @cons w v u c cs hc _ ih =>
    rw [ih, hc.begun_eq, Nat.add_assoc, ← List.countP_append, List.singleton_append]

/-- Looking the program of a directive up begins the directive and does nothing else. -/
theorem run_lookups {n : Nat} {d : Directive} (hd : ds[n]? = some d) (s : Session) :
    Run h ds ⟨s, n, .nothing⟩ (h.lookups d.programName) ⟨s, n + 1, .nothing⟩ := by
  unfold Host.lookups
  refine .cons (.find hd) ?_
  split
  · exact .nil _
  · refine .cons .findByTitle ?_
    split
    · exact .nil _
    · exact .single .names

/-- Processing a directive passes the watch, and nothing is due after it. -/
theorem run_process {n : Nat} {d : Directive} (hd : ds[n]? = some d) (s : Session) :
    Run h ds ⟨s, n, .nothing⟩ (Link.process h s d).trace.calls
      ⟨(Link.process h s d).session, n + 1, .nothing⟩ := by
  have hlook := run_lookups (h := h) hd s
  have hp := Link.process_processed h s d
  generalize Link.process h s d = o at hp ⊢
  cases hp with
  | unknown => simpa using hlook
  | invalid => simpa using hlook
  | refused _ _ ha => simpa using hlook.append (.single (.refused ha))
  | unpinned _ _ ha hf =>
    have hacts := Run.cons (.attached ha) (.cons (.unpinned hd hf) (.single .detach))
    simpa using hlook.append hacts
  | pinned _ _ ha hf =>
    have hacts := Run.cons (.attached ha) (.cons (.pinned hd hf) (.single .disconnect))
    simpa using hlook.append hacts

theorem run_processAll (total index : Nat) (s : Session) (done todo : List Directive) :
    Run h (done ++ todo) ⟨s, done.length, .nothing⟩
      (Attachment.processAll h total index s todo).trace.calls
      ⟨(Attachment.processAll h total index s todo).session, (done ++ todo).length, .nothing⟩ := by
  induction todo generalizing done index s with
  | nil => simpa [Attachment.processAll] using Run.nil _
  | cons d todo ih =>
    have hd : (done ++ d :: todo)[done.length]? = some d := by simp
    have hrest := ih (index + 1) (Link.process h s d).session (done ++ [d])
    rw [List.append_assoc, List.singleton_append, List.length_append] at hrest
    rw [Attachment.calls_processAll_cons]
    exact (run_process hd s).append hrest

/-- The calls of every run of directives pass the watch, and nothing is due at the end. -/
theorem run_attachAll (h : Host) (ds : List Directive) :
    Run h ds ⟨.fresh, 0, .nothing⟩ (attachAll h ds).trace.calls
      ⟨(Attachment.processAll h ds.length 1 .fresh ds).session, ds.length, .nothing⟩ := by
  have hrun := run_processAll (h := h) ds.length 1 .fresh [] ds
  rw [Attachment.calls_attachAll]
  refine hrun.append ?_
  unfold Attachment.lastCall
  split
  · exact .single .release
  · exact .single .close

end Watch

end ProbeLoader
