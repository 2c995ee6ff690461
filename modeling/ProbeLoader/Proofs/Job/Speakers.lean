import ProbeLoader.Object.Manifest
import ProbeLoader.Proofs.Attachment.Channels
import ProbeLoader.Proofs.Job.Checks
import ProbeLoader.Proofs.Job.Stages

/-!
# Who speaks in the log

The log of a job begins with what was printed while its object was opened and loaded. All records
after that are the loader's own, whatever the configuration says and whatever fails.
-/

namespace ProbeLoader

/-- Whether all records are the loader's own. -/
def Trace.IsOwn (t : Trace) : Prop := ∀ r ∈ t.records, r.target = Log.ownTarget

namespace Trace

variable {t u : Trace}

theorem IsOwn.append (ht : IsOwn t) (hu : IsOwn u) : IsOwn (t ++ u) := by
  intro r hr
  rw [records_append] at hr
  rcases List.mem_append.mp hr with hr | hr
  · exact ht r hr
  · exact hu r hr

theorem isOwn_of_no_records (ht : t.records = []) : IsOwn t := by
  intro r hr
  rw [ht] at hr
  exact absurd hr List.not_mem_nil

theorem isOwn_map_log {rs : List Log.Record} (hrs : ∀ r ∈ rs, r.target = Log.ownTarget) :
    IsOwn (rs.map .log) := by
  intro r hr
  rw [records_map_log] at hr
  exact hrs r hr

theorem isOwn_cons_log {r : Log.Record} (hr : r.target = Log.ownTarget) (ht : IsOwn t) :
    IsOwn (.log r :: t) := by
  intro other hother
  rcases List.mem_cons.mp hother with rfl | hother
  · exact hr
  · exact ht other hother

end Trace

open Trace

namespace Attachment

variable {h : Host}

theorem isOwn_failureEvents (d : Directive) (failure : Option DirectiveError) :
    IsOwn (failureEvents d failure) := by
  cases failure with
  | none => exact isOwn_of_no_records rfl
  | some e =>
    apply isOwn_map_log
    intro r hr
    obtain ⟨message, rfl⟩ := eq_error_of_mem_failureLog hr
    rfl

theorem isOwn_process (s : Session) (d : Directive) : IsOwn (Link.process h s d).trace := by
  intro r hr
  rw [Link.records_process] at hr
  obtain ⟨message, rfl⟩ := Link.eq_debug_of_mem_resolve h s hr
  rfl

theorem isOwn_processAll (total index : Nat) (s : Session) (ds : List Directive) :
    IsOwn (processAll h total index s ds).trace := by
  induction ds generalizing index s with
  | nil => exact isOwn_of_no_records rfl
  | cons d ds ih =>
    have hblock := (isOwn_process (h := h) s d).append
      (isOwn_failureEvents d (failure? (Link.process h s d).result))
    exact (hblock.append (isOwn_of_no_records (t := [.say ""]) rfl)).append (ih _ _)

end Attachment

theorem RunReport.isOwn_print (r : RunReport) : IsOwn r.print := by
  have hlines : IsOwn r.failureLines := isOwn_of_no_records (records_map_say _ _)
  unfold print
  refine IsOwn.append (isOwn_of_no_records rfl) ?_
  cases r.summary.status with
  | complete => exact isOwn_of_no_records rfl
  | partly => exact isOwn_cons_log rfl hlines
  | failed => exact isOwn_cons_log rfl hlines

theorem isOwn_attachAll (h : Host) (ds : List Directive) : IsOwn (attachAll h ds).trace := by
  unfold attachAll
  refine IsOwn.append (.append (Attachment.isOwn_processAll _ _ _ ds) (RunReport.isOwn_print _)) ?_
  split <;> exact isOwn_of_no_records rfl

namespace Job

variable {w : World} {j : Job}

theorem isOwn_checks (ds : List Directive) : IsOwn (j.checks w ds) := by
  unfold checks
  split
  · apply isOwn_map_log
    intro r hr
    obtain ⟨message, rfl⟩ := Preflight.eq_warn_of_mem_records hr
    rfl
  · exact isOwn_of_no_records rfl

theorem isOwn_readConfig : IsOwn ((j.readConfig w).1.map .log) := by
  apply isOwn_map_log
  intro r hr
  rcases mem_readConfig_log hr with ⟨e, rfl⟩ | ⟨n, rfl⟩
  · rfl
  · rfl

theorem isOwn_proceed (h : Host) : IsOwn (j.proceed w h).trace := by
  cases hconfig : (j.readConfig w).2 with
  | error e =>
    rw [proceed_eq_of_error hconfig]
    exact isOwn_readConfig.append (isOwn_of_no_records rfl)
  | ok ds =>
    rw [proceed_eq_of_ok hconfig]
    have hparsed : IsOwn (parsedLines ds) := isOwn_of_no_records (records_parsedLines ds)
    exact ((isOwn_readConfig.append hparsed).append (isOwn_checks ds)).append (isOwn_attachAll h ds)

/-- The records of a job are those that loading its object left, and then the loader's own. -/
theorem exists_own_records (w : World) (j : Job) : ∃ own : List Log.Record,
    (j.run w).trace.records = (w.load j.object).log ++ own ∧
      ∀ r ∈ own, r.target = Log.ownTarget := by
  cases hload : (w.load j.object).result with
  | error chain =>
    refine ⟨[], ?_, fun _ hr => absurd hr List.not_mem_nil⟩
    rw [run_eq_of_load_error hload]
    simp [banner]
  | ok h =>
    refine ⟨(j.proceed w h).trace.records, ?_, isOwn_proceed h⟩
    rw [run_eq_of_load_ok hload]
    simp [banner, loaded]

end Job

namespace Manifest

/-- What opening and loading the object at a path prints. -/
def printed (files : Files) (path : Path) : List (PrintLevel × String) :=
  match read files path with
  | .error _ => []
  | .ok m => m.openPrint ++ if m.openFailure = none then m.loadPrint else []

theorem log_load (files : Files) (path : Path) :
    (load files path).log = (printed files path).map forwarded := by
  unfold load printed
  cases read files path with
  | error chain => rfl
  | ok m =>
    cases hopen : m.openFailure with
    | some chain => simp [hopen]
    | none => cases hload : m.loadFailure <;> simp [hopen, hload]

end Manifest

end ProbeLoader
