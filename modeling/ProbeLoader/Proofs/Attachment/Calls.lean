import ProbeLoader.Proofs.Link.Process

/-!
# The calls of a run of directives

The calls of a run are those of its directives, in order, and after them the one that hands the
module over or closes it. How often a kind of call is made follows from how often one directive
makes it: a link is disconnected once for each directive that succeeded and detached once for each
that could not be pinned, and no directive loads, releases or closes the module.
-/

namespace ProbeLoader

namespace Call

def isDisconnect : Call → Bool
  | .disconnect _ => true
  | _ => false

def isDetach : Call → Bool
  | .detach _ => true
  | _ => false

/-- Whether a call is about the module as a whole. -/
def isOwnership : Call → Bool
  | .load _ => true
  | .release => true
  | .close => true
  | _ => false

end Call

def DirectiveError.isPinFailed : DirectiveError → Bool
  | .pinFailed .. => true
  | _ => false

namespace Attachment

@[simp] theorem calls_failureEvents (d : Directive) (failure : Option DirectiveError) :
    (failureEvents d failure).calls = [] := by
  cases failure with
  | none => rfl
  | some e => exact Trace.calls_map_log _

theorem calls_processAll_cons (h : Host) (total index : Nat) (s : Session) (d : Directive)
    (ds : List Directive) :
    (processAll h total index s (d :: ds)).trace.calls =
      (Link.process h s d).trace.calls ++
        (processAll h total (index + 1) (Link.process h s d).session ds).trace.calls := by
  simp [processAll]

theorem session_processAll_cons (h : Host) (total index : Nat) (s : Session) (d : Directive)
    (ds : List Directive) :
    (processAll h total index s (d :: ds)).session =
      (processAll h total (index + 1) (Link.process h s d).session ds).session := rfl

@[simp] theorem calls_print (r : RunReport) : r.print.calls = [] := by
  have hlines : r.failureLines.calls = [] := Trace.calls_map_say _ _
  unfold RunReport.print
  cases r.summary.status <;> simp [hlines]

def lastCall (r : RunReport) : Call :=
  if r.summary.isSuccess then .release else .close

theorem lastCall_cases (r : RunReport) : lastCall r = .release ∨ lastCall r = .close := by
  unfold lastCall
  split
  · exact Or.inl rfl
  · exact Or.inr rfl

theorem calls_attachAll (h : Host) (ds : List Directive) :
    (attachAll h ds).trace.calls =
      (processAll h ds.length 1 .fresh ds).trace.calls ++ [lastCall (attachAll h ds).report] := by
  unfold attachAll lastCall
  dsimp only
  split <;> simp [farewell]

/-- A kind of call that each directive makes at most once, depending on its outcome. -/
theorem countP_calls_processAll {h : Host} (kind : Call → Bool)
    (outcome : Option DirectiveError → Bool)
    (hkind : ∀ s d, (Link.process h s d).trace.calls.countP kind =
      if outcome (failure? (Link.process h s d).result) then 1 else 0)
    (total index : Nat) (s : Session) (ds : List Directive) :
    (processAll h total index s ds).trace.calls.countP kind =
      (processAll h total index s ds).outcomes.countP fun o => outcome o.2 := by
  induction ds generalizing index s with
  | nil => rfl
  | cons d ds ih =>
    rw [calls_processAll_cons, List.countP_append, hkind, ih]
    simp only [processAll, List.countP_cons]
    omega

theorem countP_lookups (kind : Call → Bool) (h : Host) (name : String)
    (hfind : kind (.find name) = false) (htitle : kind (.findByTitle name) = false)
    (hnames : kind .names = false) : (h.lookups name).countP kind = 0 := by
  apply List.countP_eq_zero.mpr
  intro c hc
  rcases Link.mem_lookups hc with rfl | rfl | rfl
  · simp [hfind]
  · simp [htitle]
  · simp [hnames]

/-- A link is disconnected exactly when its directive succeeds. -/
theorem countP_isDisconnect_process (h : Host) (s : Session) (d : Directive) :
    (Link.process h s d).trace.calls.countP Call.isDisconnect =
      if (failure? (Link.process h s d).result).isNone then 1 else 0 := by
  have hp := Link.process_processed h s d
  have hlook := countP_lookups Call.isDisconnect h d.programName rfl rfl rfl
  generalize Link.process h s d = o at hp ⊢
  cases hp <;> simp [failure?, hlook, Call.isDisconnect]

/-- A link is detached exactly when its directive fails to pin it. -/
theorem countP_isDetach_process (h : Host) (s : Session) (d : Directive) :
    (Link.process h s d).trace.calls.countP Call.isDetach =
      if (failure? (Link.process h s d).result).any DirectiveError.isPinFailed then 1 else 0 := by
  have hp := Link.process_processed h s d
  have hlook := countP_lookups Call.isDetach h d.programName rfl rfl rfl
  generalize Link.process h s d = o at hp ⊢
  cases hp <;> simp [failure?, hlook, Call.isDetach, DirectiveError.isPinFailed]

theorem countP_isOwnership_process (h : Host) (s : Session) (d : Directive) :
    (Link.process h s d).trace.calls.countP Call.isOwnership = 0 := by
  have hp := Link.process_processed h s d
  have hlook := countP_lookups Call.isOwnership h d.programName rfl rfl rfl
  generalize Link.process h s d = o at hp ⊢
  cases hp <;> simp [hlook, Call.isOwnership]

/-- A link is disconnected by the call after the one that pinned it. -/
theorem pin_before_disconnect_process {h : Host} {s : Session} {d : Directive} {link : LinkId}
    (hc : .disconnect link ∈ (Link.process h s d).trace.calls) :
    [.pin link d.pinPath, .disconnect link] <:+: (Link.process h s d).trace.calls := by
  have hlook : .disconnect link ∉ h.lookups d.programName := by
    intro hmem
    rcases Link.mem_lookups hmem with heq | heq | heq <;> exact nomatch heq
  have hp := Link.process_processed h s d
  generalize Link.process h s d = o at hp hc ⊢
  cases hp with
  | @pinned p hook =>
    obtain rfl : link = s.links + 1 := by simpa [hlook] using hc
    exact ⟨h.lookups d.programName ++ [.attach p hook], [], by simp⟩
  | _ => simp [hlook] at hc

theorem pin_before_disconnect_processAll {h : Host} {total index : Nat} {s : Session}
    {ds : List Directive} {link : LinkId}
    (hc : .disconnect link ∈ (processAll h total index s ds).trace.calls) :
    ∃ path, [.pin link path, .disconnect link] <:+:
      (processAll h total index s ds).trace.calls := by
  induction ds generalizing index s with
  | nil => exact absurd hc List.not_mem_nil
  | cons d ds ih =>
    rw [calls_processAll_cons] at hc ⊢
    rcases List.mem_append.mp hc with hfirst | hrest
    · exact ⟨d.pinPath, (pin_before_disconnect_process hfirst).trans
        (List.prefix_append _ _).isInfix⟩
    · obtain ⟨path, hpath⟩ := ih hrest
      exact ⟨path, hpath.trans (List.suffix_append _ _).isInfix⟩

variable (h : Host) (ds : List Directive)

theorem countP_isDisconnect_attachAll :
    (attachAll h ds).trace.calls.countP Call.isDisconnect =
      (attachAll h ds).report.summary.succeeded := by
  have hlast : [lastCall (attachAll h ds).report].countP Call.isDisconnect = 0 := by
    unfold lastCall
    split <;> rfl
  rw [calls_attachAll, List.countP_append, hlast, Nat.add_zero,
    countP_calls_processAll Call.isDisconnect Option.isNone (countP_isDisconnect_process h)]
  rfl

theorem countP_isDetach_attachAll :
    (attachAll h ds).trace.calls.countP Call.isDetach =
      (attachAll h ds).report.outcomes.countP fun o => o.2.any DirectiveError.isPinFailed := by
  have hlast : [lastCall (attachAll h ds).report].countP Call.isDetach = 0 := by
    unfold lastCall
    split <;> rfl
  rw [calls_attachAll, List.countP_append, hlast, Nat.add_zero,
    countP_calls_processAll Call.isDetach (fun o => o.any DirectiveError.isPinFailed)
      (countP_isDetach_process h)]
  rfl

/-- While directives are processed, the module is neither loaded nor given up. -/
theorem not_isOwnership_of_mem_processAll {total index : Nat} {s : Session} {c : Call}
    (hc : c ∈ (processAll h total index s ds).trace.calls) : c.isOwnership = false := by
  have hcount := countP_calls_processAll Call.isOwnership (fun _ => false)
    (countP_isOwnership_process h) total index s ds
  have hzero : (processAll h total index s ds).trace.calls.countP Call.isOwnership = 0 := by
    rw [hcount]
    exact List.countP_eq_zero.mpr fun _ _ => Bool.false_ne_true
  exact Bool.eq_false_iff.mpr (List.countP_eq_zero.mp hzero c hc)

end Attachment

end ProbeLoader
