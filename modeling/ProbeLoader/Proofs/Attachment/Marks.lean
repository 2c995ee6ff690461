import ProbeLoader.Proofs.Attachment.Calls

/-!
# How a run accounts for its directives

Some events of a run say which directives there are: the lines that show a directive, the lines
that count them, and looking a program up by its name. Processing a directive leaves exactly two
of them, its announcement and after that its look-up, whatever becomes of it.
-/

namespace ProbeLoader

/-- What the lines that show or count directives begin with. -/
def progressMarks : List String :=
  ["  Parsed: ", "  ✓ Found ", "[", "Successfully attached: "]

/-- Whether a line shows a directive or counts them. -/
def isMarked (line : String) : Bool :=
  progressMarks.any fun mark => line.startsWith mark

def Event.isMark : Event → Bool
  | .say line => isMarked line
  | .call (.find _) => true
  | _ => false

/-- The events that account for directives. -/
def Trace.marks (t : Trace) : Trace := t.filter Event.isMark

theorem isMarked_append {mark : String} (hmark : mark ∈ progressMarks) (rest : String) :
    isMarked (mark ++ rest) = true := by
  apply List.any_eq_true.mpr
  refine ⟨mark, hmark, ?_⟩
  rw [String.startsWith_string_iff, String.toList_append]
  exact List.prefix_append _ _

theorem isMarked_eq_false {line : String}
    (hline : ∀ mark ∈ progressMarks, ¬ mark.toList <+: line.toList) : isMarked line = false := by
  apply List.any_eq_false.mpr
  intro mark hmark hstarts
  exact hline mark hmark (String.startsWith_string_iff.mp hstarts)

theorem not_prefix_append {mark front : String}
    (hfront : ¬ mark.toList <+: front.toList ∧ ¬ front.toList <+: mark.toList) (rest : String) :
    ¬ mark.toList <+: (front ++ rest).toList := by
  rw [String.toList_append]
  intro hstarts
  rcases List.prefix_or_prefix_of_prefix hstarts (List.prefix_append _ _) with hp | hp
  · exact hfront.1 hp
  · exact hfront.2 hp

/-- A line is not marked if its beginning and the marks are no beginnings of each other. -/
theorem isMarked_append_eq_false {front : String}
    (hfront : ∀ mark ∈ progressMarks,
      ¬ mark.toList <+: front.toList ∧ ¬ front.toList <+: mark.toList) (rest : String) :
    isMarked (front ++ rest) = false := by
  apply isMarked_eq_false
  intro mark hmark
  exact not_prefix_append (hfront mark hmark) rest

namespace Trace

@[simp] theorem marks_nil : marks [] = [] := rfl

@[simp] theorem marks_append (t u : Trace) : marks (t ++ u) = marks t ++ marks u :=
  List.filter_append t u

theorem marks_cons_of_isMark {e : Event} (he : e.isMark = true) (t : Trace) :
    marks (e :: t) = e :: marks t :=
  List.filter_cons_of_pos he

theorem marks_cons_of_not_isMark {e : Event} (he : e.isMark = false) (t : Trace) :
    marks (e :: t) = marks t :=
  List.filter_cons_of_neg (Bool.eq_false_iff.mp he)

theorem marks_cons_say {line : String} (hline : isMarked line = true) (t : Trace) :
    marks (.say line :: t) = .say line :: marks t := by
  apply marks_cons_of_isMark
  exact hline

theorem marks_cons_say_of_not {line : String} (hline : isMarked line = false) (t : Trace) :
    marks (.say line :: t) = marks t := by
  apply marks_cons_of_not_isMark
  exact hline

/-- A line is left out that begins with no mark. -/
theorem marks_cons_plain {line : String}
    (hline : ∀ mark ∈ progressMarks, ¬ mark.toList <+: line.toList) (t : Trace) :
    marks (.say line :: t) = marks t :=
  marks_cons_say_of_not (isMarked_eq_false hline) t

@[simp] theorem marks_cons_log (r : Log.Record) (t : Trace) : marks (.log r :: t) = marks t := rfl

@[simp] theorem marks_map_log (rs : List Log.Record) : marks (rs.map .log) = [] := by
  induction rs with
  | nil => rfl
  | cons r rs ih => exact ih

/-- The lines that are marked are those of the marks. -/
theorem lines_marks (t : Trace) : t.marks.lines = t.lines.filter isMarked := by
  induction t with
  | nil => rfl
  | cons e t ih =>
    cases e with
    | log r => exact ih
    | call c =>
      cases c with
      | find name => exact ih
      | _ => exact ih
    | say line =>
      by_cases hline : isMarked line = true
      · rw [marks_cons_say hline, lines_cons_say, lines_cons_say, ih,
          List.filter_cons_of_pos hline]
      · rw [marks_cons_say_of_not (Bool.eq_false_iff.mpr hline), lines_cons_say, ih,
          List.filter_cons_of_neg hline]

end Trace

/-- The name that a call looks a program up by, if it does. -/
def Call.name? : Call → Option String
  | .find name => some name
  | _ => none

/-- The names that programs are looked up by are those of the marks. -/
theorem Trace.names_marks (t : Trace) :
    t.marks.calls.filterMap Call.name? = t.calls.filterMap Call.name? := by
  induction t with
  | nil => rfl
  | cons e t ih =>
    cases e with
    | log r => exact ih
    | call c =>
      cases c with
      | find name =>
        rw [marks_cons_of_isMark rfl, calls_cons_call, calls_cons_call, List.filterMap_cons,
          List.filterMap_cons, ih]
      | _ => exact ih
    | say line =>
      by_cases hline : isMarked line = true
      · rw [marks_cons_say hline]
        exact ih
      · rw [marks_cons_say_of_not (Bool.eq_false_iff.mpr hline)]
        exact ih

namespace Link

theorem isMarked_attachedLine (hook : Hook) : isMarked (attachedLine hook) = false :=
  isMarked_append_eq_false (by decide) _

theorem isMarked_pinnedLine (path : Path) : isMarked (pinnedLine path) = false :=
  isMarked_append_eq_false (by decide) _

theorem marks_resolve (h : Host) (s : Session) (name : String) :
    (resolve h s name).trace.marks = [.call (.find name)] := by
  unfold resolve
  cases h.find name with
  | some p => rfl
  | none => cases h.findByTitle name <;> rfl

/-- A directive is accounted for by looking its program up, whatever becomes of it. -/
theorem marks_process (h : Host) (s : Session) (d : Directive) :
    (process h s d).trace.marks = [.call (.find d.programName)] := by
  have hp := process_processed h s d
  generalize process h s d = o at hp ⊢
  cases hp with
  | unknown => exact marks_resolve h s d.programName
  | invalid => exact marks_resolve h s d.programName
  | refused =>
    rw [Trace.marks_append, marks_resolve]
    rfl
  | unpinned =>
    rw [Trace.marks_append, marks_resolve, Trace.marks_cons_of_not_isMark rfl,
      Trace.marks_cons_say_of_not (isMarked_attachedLine _)]
    rfl
  | pinned =>
    rw [Trace.marks_append, marks_resolve, Trace.marks_cons_of_not_isMark rfl,
      Trace.marks_cons_say_of_not (isMarked_attachedLine _), Trace.marks_cons_of_not_isMark rfl,
      Trace.marks_cons_of_not_isMark rfl, Trace.marks_cons_say_of_not (isMarked_pinnedLine _)]
    rfl

end Link

namespace Attachment

theorem isMarked_announcement (index total : Nat) (d : Directive) :
    isMarked (announcement index total d) = true := by
  unfold announcement
  simp only [String.append_assoc]
  exact isMarked_append (by decide) _

@[simp] theorem marks_failureEvents (d : Directive) (failure : Option DirectiveError) :
    (failureEvents d failure).marks = [] := by
  cases failure with
  | none => rfl
  | some e => exact Trace.marks_map_log _

/-- Announcing directives by their numbers and looking them up, one after the other. -/
def accounts (total index : Nat) (ds : List Directive) : Trace :=
  (ds.zipIdx index).flatMap fun numbered =>
    [.say (announcement numbered.2 total numbered.1), .call (.find numbered.1.programName)]

theorem accounts_cons (total index : Nat) (d : Directive) (ds : List Directive) :
    accounts total index (d :: ds) = .say (announcement index total d) ::
      .call (.find d.programName) :: accounts total (index + 1) ds := rfl

theorem names_accounts (total index : Nat) (ds : List Directive) :
    (accounts total index ds).calls.filterMap Call.name? = ds.map (·.programName) := by
  induction ds generalizing index with
  | nil => rfl
  | cons d ds ih =>
    rw [accounts_cons, Trace.calls_cons_say, Trace.calls_cons_call, List.map_cons, ← ih (index + 1)]
    rfl

theorem lines_accounts (total index : Nat) (ds : List Directive) :
    (accounts total index ds).lines =
      (ds.zipIdx index).map fun numbered => announcement numbered.2 total numbered.1 := by
  induction ds generalizing index with
  | nil => rfl
  | cons d ds ih =>
    rw [accounts_cons, Trace.lines_cons_say, Trace.lines_cons_call, ih (index + 1)]
    rfl

theorem marks_processAll (h : Host) (total index : Nat) (s : Session) (ds : List Directive) :
    (processAll h total index s ds).trace.marks = accounts total index ds := by
  induction ds generalizing index s with
  | nil => rfl
  | cons d ds ih =>
    have hannounced := isMarked_announcement index total d
    have hempty : Trace.marks [.say ""] = [] := Trace.marks_cons_plain (by decide) []
    simp only [processAll, List.cons_append, Trace.marks_cons_say hannounced,
      Trace.marks_append, Link.marks_process, marks_failureEvents, hempty, ih]
    rfl

theorem marks_failureLines (r : RunReport) : r.failureLines.marks = [] := by
  unfold RunReport.failureLines
  induction r.failures with
  | nil => rfl
  | cons f fs ih =>
    have hline : isMarked (RunReport.failureLine f) = false := by
      unfold RunReport.failureLine
      simp only [String.append_assoc]
      exact isMarked_append_eq_false (by decide) _
    rw [List.map_cons, Trace.marks_cons_say_of_not hline]
    exact ih

theorem marks_print (r : RunReport) :
    r.print.marks =
      [.say s!"Successfully attached: {r.summary.succeeded}/{r.summary.total} probes"] := by
  have htally : isMarked
      s!"Successfully attached: {r.summary.succeeded}/{r.summary.total} probes" = true := by
    simp only [String.append_assoc]
    exact isMarked_append (by decide) _
  unfold RunReport.print
  rw [Trace.marks_append, Trace.marks_cons_plain (by decide), Trace.marks_cons_plain (by decide),
    Trace.marks_cons_say htally]
  cases r.summary.status with
  | complete => rfl
  | partly => exact congrArg _ (marks_failureLines r)
  | failed => exact congrArg _ (marks_failureLines r)

theorem marks_farewell (succeeded : Nat) : (farewell succeeded).marks = [] := by
  have hactive : isMarked
      s!"eBPF program loaded successfully with {succeeded} active probe(s)" = false := by
    simp only [String.append_assoc]
    exact isMarked_append_eq_false (by decide) _
  unfold farewell
  rw [Trace.marks_cons_plain (by decide), Trace.marks_cons_say_of_not hactive,
    Trace.marks_cons_plain (by decide)]
  rfl

/-- A run accounts for its directives one after the other, and for all of them at the end. -/
theorem marks_attachAll (h : Host) (ds : List Directive) :
    let summary := (attachAll h ds).report.summary
    (attachAll h ds).trace.marks = accounts ds.length 1 ds ++
      [.say s!"Successfully attached: {summary.succeeded}/{summary.total} probes"] := by
  have hending (r : RunReport) : Trace.marks
      (if r.summary.isSuccess then .call .release :: farewell r.summary.succeeded
        else [.call .close]) = [] := by
    split
    · rw [Trace.marks_cons_of_not_isMark rfl, marks_farewell]
    · rfl
  intro summary
  unfold summary attachAll
  dsimp only
  rw [Trace.marks_append, hending, List.append_nil, List.cons_append,
    Trace.marks_cons_plain (by decide), Trace.marks_append, marks_processAll, marks_print]

/-- Every directive is in the report, in order. -/
theorem map_fst_outcomes_attachAll (h : Host) (ds : List Directive) :
    (attachAll h ds).report.outcomes.map (·.1) = ds :=
  map_fst_outcomes_processAll h ds.length 1 .fresh ds

theorem total_attachAll (h : Host) (ds : List Directive) :
    (attachAll h ds).report.summary.total = ds.length := by
  calc (attachAll h ds).report.summary.total
    _ = ((attachAll h ds).report.outcomes.map (·.1)).length := (List.length_map _).symm
    _ = ds.length := by rw [map_fst_outcomes_attachAll]

end Attachment

end ProbeLoader
