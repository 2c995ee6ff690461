import ProbeLoader.Report.Inquiry

/-!
# Reports after any operations

Whatever is recorded and asked in between, a report holds the outcomes that were recorded, in that
order. Its counts, its failures, its status and what it prints are four views of that one list,
which therefore agree: no more directives can have succeeded than there are, and only because of
this a status is complete when not less than all of them did.
-/

namespace ProbeLoader

namespace RunSummary

variable {s : RunSummary}

theorem status_eq_failed_iff : s.status = .failed ↔ s.succeeded = 0 := by
  unfold status
  split
  · simp [*]
  · split <;> simp [*]

theorem status_eq_partly_iff : s.status = .partly ↔ 0 < s.succeeded ∧ s.succeeded < s.total := by
  unfold status
  split
  · simp [*]
  · rename_i hpos
    split
    · rename_i hlt
      exact iff_of_true rfl ⟨Nat.pos_of_ne_zero hpos, hlt⟩
    · rename_i hle
      exact iff_of_false nofun fun hboth => hle hboth.2

theorem status_eq_complete_iff :
    s.status = .complete ↔ 0 < s.succeeded ∧ s.total ≤ s.succeeded := by
  unfold status
  split
  · simp [*]
  · rename_i hpos
    split
    · rename_i hlt
      exact iff_of_false nofun fun hboth => Nat.not_le_of_lt hlt hboth.2
    · rename_i hle
      exact iff_of_true rfl ⟨Nat.pos_of_ne_zero hpos, Nat.le_of_not_lt hle⟩

end RunSummary

namespace RunReport

/-- A directive and its outcome. -/
abbrev Entry := Directive × Option DirectiveError

def Entry.Succeeded (e : Entry) : Prop := e.2 = none

/-- What an operation records. -/
def Operation.entry? : Operation → Option Entry
  | .record d outcome => some (d, outcome)
  | _ => none

/-- What operations record, in order. -/
def entries (ops : List Operation) : List Entry := ops.filterMap Operation.entry?

/-- A report that keeps the books of what was recorded. -/
structure Keeps (r : RunReport) (es : List Entry) : Prop where
  total : r.summary.total = es.length
  succeeded : r.summary.succeeded = es.countP fun e => e.2.isNone
  /-- Each failure has its own directive and its own error. -/
  failures : r.failures.map (fun f => (f.1, some f.2)) = es.filter fun e => e.2.isSome
  balance : r.summary.succeeded + r.failures.length = r.summary.total
  complete_iff : r.summary.status = .complete ↔ es ≠ [] ∧ ∀ e ∈ es, Entry.Succeeded e
  partly_iff : r.summary.status = .partly ↔
    (∃ e ∈ es, Entry.Succeeded e) ∧ ∃ e ∈ es, ¬ Entry.Succeeded e
  failed_iff : r.summary.status = .failed ↔ ¬ ∃ e ∈ es, Entry.Succeeded e
  isSuccess_iff : r.summary.isSuccess = true ↔ ∃ e ∈ es, Entry.Succeeded e
  lines : r.print.lines = ["Attachment Summary:", "==================",
      s!"Successfully attached: {r.summary.succeeded}/{r.summary.total} probes"] ++
    if r.summary.status = .complete then []
    else r.failures.map fun f => s!"  ✗ line {f.1.line}: {f.1.programName}: {f.2.message}"
  records : r.print.records =
    match r.summary.status with
    | .complete => []
    | .partly => [.warn "Some probes failed to attach. Check kernel symbols and permissions."]
    | .failed => [.error "No probes were successfully attached"]

/-- What holds of a report after operations from the empty one on. -/
structure BooksKept (ops : List Operation) : Prop where
  keeps : (performAll .empty ops).2.Keeps (entries ops)
  /-- An operation is answered from what was recorded before it, and changes nothing unless it
  records. -/
  answered : ∀ before op after, ops = before ++ op :: after →
    ∃ r : RunReport, r.Keeps (entries before) ∧ (performAll .empty before).2 = r ∧
      (performAll .empty ops).1[before.length]? = some (r.perform op).1 ∧
      (op.entry? = none → (r.perform op).2 = r)
  /-- The report is the same if nobody asks. -/
  unasked : (performAll .empty (ops.filter fun op => op.entry?.isSome)).2 = (performAll .empty ops).2

section

variable (r : RunReport)

theorem succeeded_add_failures :
    r.summary.succeeded + r.failures.length = r.summary.total := by
  obtain ⟨os⟩ := r
  induction os with
  | nil => rfl
  | cons o os ih =>
    obtain ⟨d, outcome⟩ := o
    cases outcome <;> simp [summary, RunReport.failures] at ih ⊢ <;> omega

theorem map_failures : r.failures.map (fun f => (f.1, some f.2)) =
    r.outcomes.filter fun e => e.2.isSome := by
  obtain ⟨os⟩ := r
  induction os with
  | nil => rfl
  | cons o os ih =>
    obtain ⟨d, outcome⟩ := o
    cases outcome <;> simpa [RunReport.failures] using ih

theorem succeeded_pos_iff : 0 < r.summary.succeeded ↔ ∃ e ∈ r.outcomes, Entry.Succeeded e := by
  unfold summary Entry.Succeeded
  simp [List.countP_pos_iff]

/-- All directives succeeded if no fewer did than there are. -/
theorem total_le_succeeded_iff :
    r.summary.total ≤ r.summary.succeeded ↔ ∀ e ∈ r.outcomes, Entry.Succeeded e := by
  have hle : r.summary.succeeded ≤ r.summary.total := List.countP_le_length
  have hall : r.summary.succeeded = r.summary.total ↔ ∀ e ∈ r.outcomes, Entry.Succeeded e := by
    unfold summary Entry.Succeeded
    simp [List.countP_eq_length]
  rw [← hall]
  omega

theorem lines_print : r.print.lines =
    ["Attachment Summary:", "==================",
      s!"Successfully attached: {r.summary.succeeded}/{r.summary.total} probes"] ++
    if r.summary.status = .complete then [] else r.failures.map failureLine := by
  have hlines : r.failureLines.lines = r.failures.map failureLine := Trace.lines_map_say _ _
  unfold print
  cases r.summary.status <;> simp [hlines]

theorem records_print : r.print.records =
    match r.summary.status with
    | .complete => []
    | .partly => [someFailed]
    | .failed => [noneAttached] := by
  have hlines : r.failureLines.records = [] := Trace.records_map_say _ _
  unfold print
  cases r.summary.status <;> simp [hlines]

/-- The books are kept because all of them are read off the outcomes. -/
theorem keeps_outcomes : r.Keeps r.outcomes := by
  have hpos := r.succeeded_pos_iff
  have hall := r.total_le_succeeded_iff
  refine ⟨rfl, rfl, r.map_failures, r.succeeded_add_failures, ?_, ?_, ?_, ?_, ?_, ?_⟩
  · rw [RunSummary.status_eq_complete_iff, hpos, hall]
    constructor
    · intro h
      obtain ⟨⟨e, he, _⟩, hsucceeded⟩ := h
      exact ⟨List.ne_nil_of_mem he, hsucceeded⟩
    · intro h
      obtain ⟨hne, hsucceeded⟩ := h
      obtain ⟨e, he⟩ := List.exists_mem_of_ne_nil _ hne
      exact ⟨⟨e, he, hsucceeded e he⟩, hsucceeded⟩
  · rw [RunSummary.status_eq_partly_iff, hpos, ← Nat.not_le, hall]
    simp
  · rw [RunSummary.status_eq_failed_iff, ← hpos]
    omega
  · rw [RunSummary.isSuccess_iff, hpos]
  · exact r.lines_print
  · exact r.records_print

/-- An operation adds what it records to the outcomes. -/
theorem outcomes_perform (op : Operation) :
    (r.perform op).2.outcomes = r.outcomes ++ op.entry?.toList := by
  cases op with
  | record d outcome => rfl
  | summary => exact (List.append_nil _).symm
  | failures => exact (List.append_nil _).symm
  | print => exact (List.append_nil _).symm

end

theorem outcomes_performAll (r : RunReport) (ops : List Operation) :
    (performAll r ops).2.outcomes = r.outcomes ++ entries ops := by
  induction ops generalizing r with
  | nil => exact (List.append_nil _).symm
  | cons op ops ih =>
    have hrest := ih (r.perform op).2
    rw [outcomes_perform, List.append_assoc] at hrest
    cases hop : op.entry? <;> simpa [performAll, entries, hop] using hrest

theorem performAll_append (r : RunReport) (ops rest : List Operation) :
    (performAll r (ops ++ rest)).1 =
      (performAll r ops).1 ++ (performAll (performAll r ops).2 rest).1 := by
  induction ops generalizing r with
  | nil => rfl
  | cons op ops ih => exact congrArg (List.cons (r.perform op).1) (ih _)

theorem length_performAll (r : RunReport) (ops : List Operation) :
    (performAll r ops).1.length = ops.length := by
  induction ops generalizing r with
  | nil => rfl
  | cons op ops ih => exact congrArg (· + 1) (ih _)

theorem keeps_performAll (ops : List Operation) : (performAll .empty ops).2.Keeps (entries ops) := by
  have hkeeps := keeps_outcomes (performAll .empty ops).2
  rwa [outcomes_performAll] at hkeeps

/-- A report keeps the books of what was recorded, whatever is asked meanwhile. -/
theorem performAll_booksKept (ops : List Operation) : BooksKept ops := by
  refine ⟨keeps_performAll ops, ?_, ?_⟩
  · intro before op after hops
    refine ⟨_, keeps_performAll before, rfl, ?_, ?_⟩
    · have hlength := length_performAll .empty before
      rw [hops, performAll_append, ← hlength, List.getElem?_append_right (Nat.le_refl _),
        Nat.sub_self]
      rfl
    · intro hop
      cases op with
      | record d outcome => exact nomatch hop
      | summary => rfl
      | failures => rfl
      | print => rfl
  · have hsame : entries (ops.filter fun op => op.entry?.isSome) = entries ops := by
      unfold entries
      rw [List.filterMap_filter]
      congr 1
      funext op
      cases op.entry? <;> rfl
    have houtcomes := outcomes_performAll .empty (ops.filter fun op => op.entry?.isSome)
    rw [hsame, ← outcomes_performAll] at houtcomes
    cases h : (performAll .empty ops).2
    cases h' : (performAll .empty (ops.filter fun op => op.entry?.isSome)).2
    rw [h, h'] at houtcomes
    exact congrArg RunReport.mk houtcomes

end RunReport

end ProbeLoader
