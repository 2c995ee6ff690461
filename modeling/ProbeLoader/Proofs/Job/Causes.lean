import ProbeLoader.Program
import ProbeLoader.Proofs.Attachment.Isolation
import ProbeLoader.Proofs.Attachment.Marks
import ProbeLoader.Proofs.Job.Configured
import Mathlib.Data.List.Infix

/-!
# Which causes are told

A failure of the host is a chain of messages. A module that cannot be loaded is told with all of
them. A directive that cannot be attached or pinned is told with the outermost message only, in the
log as well as in the summary: a run tells the same whatever stands behind that message.
-/

namespace ProbeLoader

/-- Whether a text holds messages one after the other. -/
def HoldsInOrder : List String → String → Prop
  | [], _ => True
  | m :: ms, text => ∃ before rest, text = before ++ m ++ rest ∧ HoldsInOrder ms rest

namespace HoldsInOrder

theorem append_left {ms : List String} {text : String} (hms : HoldsInOrder ms text)
    (front : String) : HoldsInOrder ms (front ++ text) := by
  cases ms with
  | nil => exact hms
  | cons m ms =>
    obtain ⟨before, rest, heq, hrest⟩ := hms
    refine ⟨front ++ before, rest, ?_, hrest⟩
    rw [heq, String.append_assoc, String.append_assoc, String.append_assoc]

theorem intercalate (sep : String) (ms : List String) :
    HoldsInOrder ms (sep.intercalate ms) := by
  induction ms with
  | nil => trivial
  | cons m ms ih =>
    by_cases hms : ms = []
    · subst hms
      exact ⟨"", "", by simp, trivial⟩
    · refine ⟨"", sep ++ sep.intercalate ms, ?_, ih.append_left sep⟩
      rw [String.intercalate_cons_of_ne_nil hms, String.empty_append, String.append_assoc]

theorem isInfix {ms : List String} {text m : String} (hms : HoldsInOrder ms text) (hm : m ∈ ms) :
    m.toList <:+: text.toList := by
  induction ms generalizing text with
  | nil => exact absurd hm List.not_mem_nil
  | cons first ms ih =>
    obtain ⟨before, rest, heq, hrest⟩ := hms
    have htext : text.toList = before.toList ++ first.toList ++ rest.toList := by
      rw [heq, String.toList_append, String.toList_append]
    rw [htext]
    rcases List.mem_cons.mp hm with rfl | hm
    · exact ⟨before.toList, rest.toList, rfl⟩
    · exact (ih hrest hm).trans (List.suffix_append _ _).isInfix

end HoldsInOrder

theorem Chain.holdsInOrder_joined (c : Chain) : HoldsInOrder c.messages c.joined :=
  .intercalate ": " c.messages

theorem Chain.messages_of_length_le_one (c : Chain) (hlength : c.messages.length ≤ 1) :
    c.messages = [c.outermost] := by
  have hcauses : c.causes = [] :=
    List.eq_nil_of_length_eq_zero (Nat.le_zero.mp (Nat.le_of_succ_le_succ hlength))
  unfold messages
  rw [hcauses]

/-- The outermost message of a chain alone. -/
def Chain.terse (c : Chain) : Chain := .ofMessage c.outermost

namespace DirectiveError

/-- A failure without the causes behind the outermost message of the host. -/
def terse : DirectiveError → DirectiveError
  | .attachFailed hook cause => .attachFailed hook cause.terse
  | .pinFailed path cause => .pinFailed path cause.terse
  | e => e

@[simp] theorem message_terse (e : DirectiveError) : e.terse.message = e.message := by
  cases e <;> rfl

end DirectiveError

/-- A host that gives no causes behind the outermost message of a failure. -/
def Host.terse (h : Host) : Host :=
  { h with
    attachFailure := fun p hook => (h.attachFailure p hook).map Chain.terse
    pinFailure := fun pinned path => (h.pinFailure pinned path).map Chain.terse }

def Loading.terse (l : Loading) : Loading := ⟨l.log, l.result.map Host.terse⟩

/-- A world whose modules give no causes once they are loaded. -/
def World.terse (w : World) : World := { w with load := fun path => (w.load path).terse }

def RunReport.terse (r : RunReport) : RunReport :=
  ⟨r.outcomes.map fun o => (o.1, o.2.map DirectiveError.terse)⟩

def Outcome.terse (o : Outcome Unit) : Outcome Unit :=
  { o with result := o.result.mapError DirectiveError.terse }

namespace Link

variable {h : Host} {s : Session} {d : Directive}

theorem Processed.terse {o : Outcome Unit} (ho : Processed h s d o) :
    Processed h.terse s d o.terse := by
  cases ho with
  | unknown hp => exact .unknown hp
  | invalid hp ht => exact .invalid hp ht
  | refused hp ht ha =>
    have ha' := congrArg (Option.map Chain.terse) ha
    exact .refused hp ht ha'
  | unpinned hp ht ha hf =>
    have ha' := congrArg (Option.map Chain.terse) ha
    have hf' := congrArg (Option.map Chain.terse) hf
    exact .unpinned hp ht ha' hf'
  | pinned hp ht ha hf =>
    have ha' := congrArg (Option.map Chain.terse) ha
    have hf' := congrArg (Option.map Chain.terse) hf
    exact .pinned hp ht ha' hf'

theorem process_terse (h : Host) (s : Session) (d : Directive) :
    process h.terse s d = (process h s d).terse :=
  (process_processed h.terse s d).unique (process_processed h s d).terse

end Link

namespace Attachment

variable (h : Host)

theorem failureEvents_terse (d : Directive) (failure : Option DirectiveError) :
    failureEvents d (failure.map DirectiveError.terse) = failureEvents d failure := by
  cases failure with
  | none => rfl
  | some e => cases e <;> rfl

theorem failure?_terse (o : Outcome Unit) :
    failure? o.terse.result = (failure? o.result).map DirectiveError.terse := by
  unfold Outcome.terse
  cases o.result <;> rfl

theorem processAll_terse (total index : Nat) (s : Session) (ds : List Directive) :
    processAll h.terse total index s ds =
      ⟨(processAll h total index s ds).outcomes.map fun o => (o.1, o.2.map DirectiveError.terse),
        (processAll h total index s ds).session, (processAll h total index s ds).trace⟩ := by
  induction ds generalizing index s with
  | nil => rfl
  | cons d ds ih =>
    unfold processAll
    dsimp only
    rw [Link.process_terse, failure?_terse, failureEvents_terse, ih]
    rfl

end Attachment

namespace RunReport

theorem summary_terse (r : RunReport) : r.terse.summary = r.summary := by
  unfold summary terse
  rw [List.length_map, List.countP_map]
  congr 2
  funext o
  exact Option.isNone_map

theorem failures_terse (r : RunReport) :
    r.terse.failures = r.failures.map fun f => (f.1, f.2.terse) := by
  unfold failures terse
  dsimp only
  rw [List.filterMap_map, List.map_filterMap]
  congr 1
  funext o
  obtain ⟨d, failure⟩ := o
  cases failure <;> rfl

theorem failureLines_terse (r : RunReport) : r.terse.failureLines = r.failureLines := by
  unfold failureLines
  rw [failures_terse, List.map_map]
  congr 1
  funext f
  simp [failureLine]

theorem print_terse (r : RunReport) : r.terse.print = r.print := by
  unfold print
  rw [summary_terse, failureLines_terse]

theorem result_terse (r : RunReport) : r.terse.result = r.result := by
  unfold result
  rw [summary_terse]

end RunReport

theorem attachAll_terse (h : Host) (ds : List Directive) :
    attachAll h.terse ds = ⟨(attachAll h ds).report.terse, (attachAll h ds).trace⟩ := by
  have hprint := (attachAll h ds).report.print_terse
  have hsummary := (attachAll h ds).report.summary_terse
  unfold attachAll RunReport.terse at hprint hsummary ⊢
  dsimp only at hprint hsummary ⊢
  rw [Attachment.processAll_terse]
  dsimp only
  rw [hprint, hsummary]

theorem Job.run_terse (w : World) (j : Job) : j.run w.terse = j.run w := by
  cases hload : (w.load j.object).result with
  | error chain =>
    have hload' : (w.terse.load j.object).result = .error chain :=
      congrArg (Except.map Host.terse) hload
    rw [run_eq_of_load_error hload, run_eq_of_load_error hload']
    rfl
  | ok h =>
    have hload' : (w.terse.load j.object).result = .ok h.terse :=
      congrArg (Except.map Host.terse) hload
    have hproceed : j.proceed w.terse h.terse = j.proceed w h := by
      cases hconfig : (j.readConfig w).2 with
      | error e =>
        rw [proceed_eq_of_error hconfig, proceed_eq_of_error (w := w.terse) hconfig]
        rfl
      | ok ds =>
        rw [proceed_eq_of_ok hconfig, proceed_eq_of_ok (w := w.terse) hconfig, attachAll_terse,
          RunReport.result_terse]
        rfl
    rw [run_eq_of_load_ok hload, run_eq_of_load_ok hload', hproceed]
    rfl

/-- Whether the failure of a directive is told with a text, in the log and in the summary. -/
def Attachment.Tells (a : Attachment) (d : Directive) (text : String) : Prop :=
  .error text ∈ a.trace.records ∧ s!"  ✗ line {d.line}: {d.programName}: {text}" ∈ a.trace.lines

namespace Attachment

theorem record_mem_processAll {h : Host} {total index : Nat} {s : Session} {ds : List Directive}
    {d : Directive} {e : DirectiveError}
    (he : (d, some e) ∈ (processAll h total index s ds).outcomes) :
    .error e.message ∈ (processAll h total index s ds).trace.records := by
  induction ds generalizing index s with
  | nil => exact absurd he List.not_mem_nil
  | cons first ds ih =>
    simp only [processAll, List.cons_append, Trace.records_cons_say, Trace.records_append,
      List.mem_append]
    rcases List.mem_cons.mp he with hfirst | hrest
    · obtain ⟨rfl, hfailure⟩ := Prod.mk.inj hfirst
      rw [← hfailure]
      left; left; right
      simp [failureEvents, failureLog]
    · exact Or.inr (ih hrest)

end Attachment

namespace RunReport

variable {r : RunReport} {d : Directive} {e : DirectiveError}

theorem status_of_failure (he : (d, some e) ∈ r.outcomes) : r.summary.status ≠ .complete := by
  have hless : r.summary.succeeded < r.summary.total := by
    apply lt_of_le_of_ne List.countP_le_length
    intro hall
    have hnone := List.countP_eq_length.mp hall _ he
    exact nomatch hnone
  unfold RunSummary.status
  rw [if_pos hless]
  split
  · exact nofun
  · exact nofun

theorem failureLine_mem_print (he : (d, some e) ∈ r.outcomes) :
    failureLine (d, e) ∈ r.print.lines := by
  have hfailure : (d, e) ∈ r.failures := List.mem_filterMap.mpr ⟨_, he, rfl⟩
  have hline : failureLine (d, e) ∈ r.failureLines.lines :=
    List.mem_filterMap.mpr ⟨_, List.mem_map.mpr ⟨_, hfailure, rfl⟩, rfl⟩
  have hstatus := status_of_failure he
  unfold print
  rw [Trace.lines_append, List.mem_append]
  cases hcase : r.summary.status with
  | complete => exact absurd hcase hstatus
  | partly => exact Or.inr hline
  | failed => exact Or.inr hline

end RunReport

open Attachment in
/-- Every failure of a directive is told with its message. -/
theorem attachAll_tells {h : Host} {ds : List Directive} {d : Directive} {e : DirectiveError}
    (he : (d, some e) ∈ (attachAll h ds).report.outcomes) : (attachAll h ds).Tells d e.message := by
  have hrecord := record_mem_processAll he
  have hline := RunReport.failureLine_mem_print he
  unfold Tells attachAll
  dsimp only
  rw [Trace.records_append, Trace.records_append, Trace.records_cons_say, Trace.lines_append,
    Trace.lines_append]
  constructor
  · exact List.mem_append_left _ (List.mem_append_left _ hrecord)
  · exact List.mem_append_left _ (List.mem_append_right _ hline)

/-- The text of a failure with at most one message of the host holds that message. -/
theorem DirectiveError.holdsInOrder_message (e : DirectiveError) (hsingle : e.causes.length ≤ 1) :
    HoldsInOrder e.causes e.message := by
  cases e with
  | programNotFound name available => trivial
  | invalidTarget kind target reason => trivial
  | attachFailed hook cause =>
    change HoldsInOrder cause.messages _
    rw [cause.messages_of_length_le_one hsingle]
    exact ⟨_, "", (String.append_empty).symm, trivial⟩
  | pinFailed path cause =>
    change HoldsInOrder cause.messages _
    rw [cause.messages_of_length_le_one hsingle]
    exact ⟨_, "", (String.append_empty).symm, trivial⟩

/-- Whether a job whose module cannot be loaded ends its log with all messages of the chain. -/
def Job.TellsChain (w : World) (j : Job) : Prop :=
  ∀ chain console, (w.load j.object).result = .error chain →
    ∃ text, (Ending.ran console j (j.run w)).records.getLast? = some (.error text) ∧
      HoldsInOrder chain.messages text

open Attachment in
/-- What a run over directives tells of the failures of the host. -/
structure TellsOutermost (h : Host) (ds : List Directive) : Prop where
  attaching : ∀ d ∈ ds, ∀ p hook chain, h.program? d.programName = some p →
    Hook.ofTarget d.kind d.target = .ok hook → h.attachFailure p hook = some chain →
    (attachAll h ds).Tells d s!"Failed to attach to {hook.shown}: {chain.outermost}"
  /-- What was pinned before decides whether a link can be pinned. -/
  pinning : ∀ before d after p hook chain, ds = before ++ d :: after →
    h.program? d.programName = some p → Hook.ofTarget d.kind d.target = .ok hook →
    h.attachFailure p hook = none →
    h.pinFailure (work h .fresh before).session.pinned d.pinPath = some chain →
    (attachAll h ds).Tells d s!"Failed to pin link at {d.pinPath.shown}: {chain.outermost}"
  single : ∀ e : DirectiveError, e.causes.length ≤ 1 → HoldsInOrder e.causes e.message
  /-- Nothing that is done, said or logged depends on the causes behind the outermost messages. -/
  hidden : (attachAll h.terse ds).trace = (attachAll h ds).trace

theorem Job.tellsChain (w : World) (j : Job) : j.TellsChain w := by
  intro chain console hload
  have hjoined := chain.holdsInOrder_joined.append_left (j.object.shown ++ ": ")
  refine ⟨s!"{j.object.shown}: {chain.joined}", ?_, hjoined⟩
  unfold Ending.records
  dsimp only
  rw [run_eq_of_load_error hload]
  exact List.getLast?_concat

namespace Attachment

variable {h : Host} {d : Directive} {e : DirectiveError}

/-- What a directive comes to after others is what the report says of it. -/
theorem mem_outcomes_of_processed {before after : List Directive} {o : Outcome Unit}
    (ho : Link.Processed h (work h .fresh before).session d o) (hresult : o.result = .error e) :
    (d, some e) ∈ (attachAll h (before ++ d :: after)).report.outcomes := by
  have houtcome := getElem?_outcomes_attachAll h before after d
  rw [(Link.process_processed h _ d).unique ho, hresult] at houtcome
  exact List.mem_of_getElem? houtcome

end Attachment

open Attachment in
theorem tellsOutermost (h : Host) (ds : List Directive) : TellsOutermost h ds := by
  refine ⟨?_, ?_, DirectiveError.holdsInOrder_message, ?_⟩
  · intro d hd p hook chain hp ht ha
    obtain ⟨before, after, rfl⟩ := List.append_of_mem hd
    exact attachAll_tells (mem_outcomes_of_processed (.refused hp ht ha) rfl)
  · intro before d after p hook chain hds hp ht ha hf
    subst hds
    exact attachAll_tells (mem_outcomes_of_processed (.unpinned hp ht ha hf) rfl)
  · rw [attachAll_terse]

/-- All causes are told of a module that cannot be loaded, but of a directive that cannot be
attached or pinned only the outermost one is. -/
theorem causes_told (w : World) (j : Job) (h : Host) (ds : List Directive) :
    j.TellsChain w ∧ TellsOutermost h ds ∧ j.run w.terse = j.run w :=
  ⟨j.tellsChain w, tellsOutermost h ds, j.run_terse w⟩

/-- The reason that a directive cannot be attached for is nowhere in the log and the summary. -/
theorem causes_untold :
    let chain : Chain := ⟨"failed to create kprobe", ["No such file or directory (os error 2)"]⟩
    let s : Script :=
      { programs := [("count", "kprobe/vfs_read")]
        loadFailure := none
        attachFailure := fun hook => if hook = .kprobe "vfs_read" then some chain else none
        pinFailure := fun _ => none
        exclusivePins := false }
    let d : Directive := ⟨1, .ofString "/p/a", "count", .kprobe, "vfs_read"⟩
    (attachAll s.host [d]).report.outcomes =
        [(d, some (.attachFailed (.kprobe "vfs_read") chain))] ∧
      (∀ r ∈ (attachAll s.host [d]).trace.records, ¬ HoldsInOrder chain.messages r.message) ∧
      ∀ line ∈ (attachAll s.host [d]).trace.lines, ¬ HoldsInOrder chain.messages line := by
  intro chain s d
  have hreason : "No such file or directory (os error 2)" ∈ chain.messages :=
    List.mem_cons_of_mem _ List.mem_cons_self
  -- The reason is told apart by its digit.
  have hdigit : '2' ∈ "No such file or directory (os error 2)".toList := by decide
  refine ⟨by decide +kernel, ?_, ?_⟩
  · intro r hr htold
    have hlog : ∀ r ∈ (attachAll s.host [d]).trace.records, '2' ∉ r.message.toList := by
      decide +kernel
    exact hlog r hr ((htold.isInfix hreason).subset hdigit)
  · intro line hline htold
    have hlines : ∀ line ∈ (attachAll s.host [d]).trace.lines, '2' ∉ line.toList := by
      decide +kernel
    exact hlines line hline ((htold.isInfix hreason).subset hdigit)

end ProbeLoader
