import ProbeLoader.Proofs.Attachment.Parts
import Mathlib.Data.List.Forall2

/-!
# The events of one directive

Processing a directive leaves a block of events, from its announcement to an empty line. The lines
in between say which hook point its link was attached to and where it was pinned, if it was, and
the errors of the block tell of its failure and of nothing else. A run is its blocks one after the
other.
-/

namespace ProbeLoader

/-- The hook point at which a call makes a link, if it makes one. -/
def Call.linkHook? (h : Host) : Call → Option Hook
  | .attach p hook => if h.attachFailure p hook = none then some hook else none
  | _ => none

/-- The hook points at which calls make links. -/
def Call.linkHooks (h : Host) (calls : List Call) : List Hook :=
  calls.filterMap (Call.linkHook? h)

def Trace.recordsAt (level : Log.Level) (t : Trace) : List Log.Record :=
  t.records.filter fun r => r.level = level

/-- What the log tells of a directive that failed: the error, the programs that there are if there
is no such program, and the directive. -/
def told (h : Host) (f : Directive × DirectiveError) : List Log.Record :=
  .error f.2.message ::
    (match f.2 with
    | .programNotFound .. =>
      .error "Available programs:" :: h.names.map fun name => .error s!"  - {name}"
    | _ => []) ++
    [.error s!"  ✗ Failed to attach probe: {f.1.programName} (line {f.1.line})"]

/-- The events of the directive that is announced by a number. -/
structure IsBlock (h : Host) (total number : Nat) (d : Directive) (failure : Option DirectiveError)
    (b : Trace) : Prop where
  lines : b.lines = Attachment.announcement number total d ::
    (Call.linkHooks h b.calls).map Link.attachedLine ++
      (if failure = none then [Link.pinnedLine d.pinPath] else []) ++ [""]
  begins : b.calls.head? = some (.find d.programName)
  hooks : ∀ hook ∈ Call.linkHooks h b.calls, Hook.ofTarget d.kind d.target = .ok hook
  disconnects : b.calls.countP Call.isDisconnect = if failure = none then 1 else 0
  errors : b.recordsAt .error = failure.elim [] fun e => told h (d, e)
  warnings : b.recordsAt .warn = []

namespace Call

variable (h : Host)

@[simp] theorem linkHooks_nil : linkHooks h [] = [] := rfl

theorem linkHooks_cons (c : Call) (calls : List Call) :
    linkHooks h (c :: calls) = (linkHook? h c).toList ++ linkHooks h calls := by
  unfold linkHooks
  rw [List.filterMap_cons]
  cases linkHook? h c <;> rfl

@[simp] theorem linkHooks_append (calls more : List Call) :
    linkHooks h (calls ++ more) = linkHooks h calls ++ linkHooks h more :=
  List.filterMap_append

@[simp] theorem linkHooks_lookups (name : String) : linkHooks h (h.lookups name) = [] := by
  apply List.filterMap_eq_nil_iff.mpr
  intro c hc
  rcases Link.mem_lookups hc with rfl | rfl | rfl <;> rfl

theorem length_linkHooks (calls : List Call) :
    (linkHooks h calls).length = calls.countP (makesLink h) := by
  unfold linkHooks
  rw [List.length_filterMap_eq_countP]
  apply List.countP_congr
  intro c _
  cases c with
  | attach p hook => cases ha : h.attachFailure p hook <;> simp [linkHook?, makesLink, ha]
  | _ => simp [linkHook?, makesLink]

end Call

namespace Trace

variable (level : Log.Level)

@[simp] theorem recordsAt_append (t u : Trace) :
    recordsAt level (t ++ u) = recordsAt level t ++ recordsAt level u := by
  unfold recordsAt
  rw [records_append, List.filter_append]

@[simp] theorem recordsAt_nil : recordsAt level [] = [] := rfl

@[simp] theorem recordsAt_cons_call (c : Call) (t : Trace) :
    recordsAt level (.call c :: t) = recordsAt level t := rfl

@[simp] theorem recordsAt_cons_say (line : String) (t : Trace) :
    recordsAt level (.say line :: t) = recordsAt level t := rfl

theorem mem_recordsAt_iff {level : Log.Level} {r : Log.Record} (hr : r.level = level) {t : Trace} :
    r ∈ recordsAt level t ↔ r ∈ t.records := by
  unfold recordsAt
  rw [List.mem_filter]
  simp [hr]

theorem recordsAt_eq_nil {level : Log.Level} {t : Trace} (ht : ∀ r ∈ t.records, r.level ≠ level) :
    recordsAt level t = [] := by
  apply List.filter_eq_nil_iff.mpr
  intro r hr
  simpa using ht r hr

theorem recordsAt_eq_records {level : Log.Level} {t : Trace}
    (ht : ∀ r ∈ t.records, r.level = level) : recordsAt level t = t.records := by
  apply List.filter_eq_self.mpr
  intro r hr
  simpa using ht r hr

end Trace

namespace Link

variable (h : Host) (s : Session) (d : Directive)

@[simp] theorem lines_resolve (name : String) : (resolve h s name).trace.lines = [] := by
  unfold resolve
  cases h.find name with
  | some p => rfl
  | none => cases h.findByTitle name <;> rfl

theorem eq_debug_of_mem_resolve {name : String} {r : Log.Record}
    (hr : r ∈ (resolve h s name).trace.records) : ∃ message, r = .debug message := by
  unfold resolve at hr
  cases hfind : h.find name with
  | some p => simp [hfind] at hr
  | none =>
    cases htitle : h.findByTitle name with
    | none => simp [hfind, htitle] at hr
    | some p =>
      simp only [hfind, htitle] at hr
      exact ⟨_, List.mem_singleton.mp hr⟩

theorem records_process :
    (process h s d).trace.records = (resolve h s d.programName).trace.records := by
  have hp := process_processed h s d
  generalize process h s d = o at hp ⊢
  cases hp <;> simp

theorem eq_of_mem_linkHooks_process {hook : Hook}
    (hhook : hook ∈ Call.linkHooks h (process h s d).trace.calls) :
    Hook.ofTarget d.kind d.target = .ok hook := by
  have hp := process_processed h s d
  generalize process h s d = o at hp hhook
  cases hp with
  | unknown => simp at hhook
  | invalid => simp at hhook
  | refused _ _ ha => simp [Call.linkHooks_cons, Call.linkHook?, ha] at hhook
  | unpinned _ ht ha =>
    obtain rfl : hook = _ := by simpa [Call.linkHooks_cons, Call.linkHook?, ha] using hhook
    exact ht
  | pinned _ ht ha =>
    obtain rfl : hook = _ := by simpa [Call.linkHooks_cons, Call.linkHook?, ha] using hhook
    exact ht

theorem head?_calls_process :
    (process h s d).trace.calls.head? = some (.find d.programName) := by
  have hp := process_processed h s d
  generalize process h s d = o at hp ⊢
  cases hp <;> simp [Host.lookups]

theorem lines_process : (process h s d).trace.lines =
    (Call.linkHooks h (process h s d).trace.calls).map attachedLine ++
      if Attachment.failure? (process h s d).result = none then [pinnedLine d.pinPath] else [] := by
  have hp := process_processed h s d
  generalize process h s d = o at hp ⊢
  cases hp with
  | unknown => simp [Attachment.failure?]
  | invalid => simp [Attachment.failure?]
  | refused _ _ ha => simp [Attachment.failure?, Call.linkHooks_cons, Call.linkHook?, ha]
  | unpinned _ _ ha => simp [Attachment.failure?, Call.linkHooks_cons, Call.linkHook?, ha]
  | pinned _ _ ha => simp [Attachment.failure?, Call.linkHooks_cons, Call.linkHook?, ha]

/-- The programs that a failure names are those of the module. -/
theorem failureLog_process {e : DirectiveError}
    (he : Attachment.failure? (process h s d).result = some e) :
    Attachment.failureLog d e = told h (d, e) := by
  have hp := process_processed h s d
  generalize process h s d = o at hp he
  cases hp with
  | pinned => exact nomatch he
  | _ =>
    obtain rfl := Option.some.inj he
    rfl

theorem recordsAt_process (level : Log.Level) (hlevel : level ≠ .debug) :
    (process h s d).trace.recordsAt level = [] := by
  apply Trace.recordsAt_eq_nil
  intro r hr
  rw [records_process] at hr
  obtain ⟨message, rfl⟩ := eq_debug_of_mem_resolve h s hr
  exact hlevel.symm

end Link

namespace Attachment

variable {h : Host}

theorem eq_error_of_mem_failureLog {d : Directive} {e : DirectiveError} {r : Log.Record}
    (hr : r ∈ failureLog d e) : ∃ message, r = .error message := by
  unfold failureLog at hr
  rcases List.mem_append.mp hr with hr | hr
  · rcases List.mem_cons.mp hr with rfl | hr
    · exact ⟨_, rfl⟩
    · cases e with
      | programNotFound name names =>
        rcases List.mem_cons.mp hr with rfl | hr
        · exact ⟨_, rfl⟩
        · obtain ⟨available, _, rfl⟩ := List.mem_map.mp hr
          exact ⟨_, rfl⟩
      | _ => exact absurd hr List.not_mem_nil
  · exact ⟨_, List.mem_singleton.mp hr⟩

@[simp] theorem lines_failureEvents (d : Directive) (failure : Option DirectiveError) :
    (failureEvents d failure).lines = [] := by
  cases failure with
  | none => rfl
  | some e => exact Trace.lines_map_log _

/-- The block of a directive that is processed from a session on. -/
def block (h : Host) (total number : Nat) (s : Session) (d : Directive) : Trace :=
  .say (announcement number total d) :: (Link.process h s d).trace ++
    failureEvents d (failure? (Link.process h s d).result) ++ [.say ""]

theorem calls_block (total number : Nat) (s : Session) (d : Directive) :
    (block h total number s d).calls = (Link.process h s d).trace.calls := by
  simp [block]

theorem records_failureEvents (d : Directive) (e : DirectiveError) :
    (failureEvents d (some e)).records = failureLog d e :=
  Trace.records_map_log _

theorem recordsAt_failureEvents_error (d : Directive) (e : DirectiveError) :
    (failureEvents d (some e)).recordsAt .error = failureLog d e := by
  rw [Trace.recordsAt_eq_records, records_failureEvents]
  intro r hr
  rw [records_failureEvents] at hr
  obtain ⟨message, rfl⟩ := eq_error_of_mem_failureLog hr
  rfl

theorem recordsAt_failureEvents_warn (d : Directive) (failure : Option DirectiveError) :
    (failureEvents d failure).recordsAt .warn = [] := by
  cases failure with
  | none => rfl
  | some e =>
    apply Trace.recordsAt_eq_nil
    intro r hr
    rw [records_failureEvents] at hr
    obtain ⟨message, rfl⟩ := eq_error_of_mem_failureLog hr
    exact Log.Level.noConfusion

/-- What one directive leaves behind is a block of its own. -/
theorem block_isBlock (total number : Nat) (s : Session) (d : Directive) :
    IsBlock h total number d (failure? (Link.process h s d).result)
      (block h total number s d) := by
  refine ⟨?_, ?_, ?_, ?_, ?_, ?_⟩
  · rw [calls_block]
    simp [block, Link.lines_process]
  · rw [calls_block]
    exact Link.head?_calls_process h s d
  · intro hook hhook
    rw [calls_block] at hhook
    exact Link.eq_of_mem_linkHooks_process h s d hhook
  · rw [calls_block, countP_isDisconnect_process]
    simp only [Option.isNone_iff_eq_none]
  · have hprocess := Link.recordsAt_process h s d .error (by decide)
    simp only [block, List.cons_append, Trace.recordsAt_cons_say, Trace.recordsAt_append, hprocess]
    cases he : failure? (Link.process h s d).result with
    | none => rfl
    | some e =>
      rw [recordsAt_failureEvents_error, Link.failureLog_process h s d he]
      simp
  · have hprocess := Link.recordsAt_process h s d .warn (by decide)
    simp only [block, List.cons_append, Trace.recordsAt_cons_say, Trace.recordsAt_append, hprocess,
      recordsAt_failureEvents_warn]
    rfl

/-- Processing directives leaves their blocks, one after the other. -/
theorem exists_blocks (total index : Nat) (s : Session) (ds : List Directive) :
    ∃ blocks : List Trace, (processAll h total index s ds).trace = blocks.flatten ∧
      List.Forall₂ (fun o b => IsBlock h total o.2 o.1.1 o.1.2 b)
        ((processAll h total index s ds).outcomes.zipIdx index) blocks := by
  induction ds generalizing index s with
  | nil => exact ⟨[], rfl, .nil⟩
  | cons d ds ih =>
    obtain ⟨blocks, htrace, hblocks⟩ := ih (index + 1) (Link.process h s d).session
    refine ⟨block h total index s d :: blocks, ?_, .cons (block_isBlock total index s d) hblocks⟩
    rw [List.flatten_cons, ← htrace]
    rfl

end Attachment

end ProbeLoader
