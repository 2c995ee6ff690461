import ProbeLoader.Proofs.Attachment.Calls
import ProbeLoader.Proofs.Job.Configured

/-!
# Who owns the module

A job loads its module first and gives it up last: it is handed over to the kernel if a link was
pinned, and closed on every other way out. In between nobody touches the module as a whole, and a
job without a configuration does nothing with it.
-/

namespace ProbeLoader

namespace Attachment

variable (h : Host) (ds : List Directive)

theorem lastCall_eq_release_iff (r : RunReport) :
    lastCall r = .release ↔ r.summary.isSuccess = true := by
  unfold lastCall
  split <;> simp [*]

theorem lastCall_eq_release_iff_disconnect :
    lastCall (attachAll h ds).report = .release ↔
      ∃ link, .disconnect link ∈ (attachAll h ds).trace.calls := by
  rw [lastCall_eq_release_iff, RunSummary.isSuccess_iff, ← countP_isDisconnect_attachAll,
    List.countP_pos_iff]
  constructor
  · rintro ⟨c, hc, hkind⟩
    cases c with
    | disconnect link => exact ⟨link, hc⟩
    | _ => exact absurd hkind Bool.false_ne_true
  · rintro ⟨link, hc⟩
    exact ⟨_, hc, rfl⟩

theorem lastCall_eq_release_iff_result (r : RunReport) :
    lastCall r = .release ↔ ∃ summary, r.result = .ok summary := by
  rw [lastCall_eq_release_iff]
  unfold RunReport.result
  split <;> simp [*]

end Attachment

namespace Job

variable (w : World) (j : Job)

@[simp] theorem calls_parsedLines (ds : List Directive) : (parsedLines ds).calls = [] := by
  unfold parsedLines
  rw [Trace.calls_append]
  induction ds with
  | nil => rfl
  | cons d ds ih => simpa using ih

/-- Without a configuration a loaded module is closed, with one its directives are attached. -/
theorem proceed_cases (h : Host) :
    (∃ e, (j.proceed w h).result = .error (.config e) ∧ (j.proceed w h).trace.calls = [.close]) ∨
      ∃ ds, (j.proceed w h).result = (attachAll h ds).report.result ∧
        (j.proceed w h).trace.calls = (attachAll h ds).trace.calls := by
  cases hconfig : (j.readConfig w).2 with
  | error e =>
    rw [proceed_eq_of_error hconfig]
    exact Or.inl ⟨e, rfl, by simp⟩
  | ok ds =>
    rw [proceed_eq_of_ok hconfig]
    exact Or.inr ⟨ds, rfl, by simp⟩

variable {w j}

theorem run_of_load_error {chain : Chain} (hload : (w.load j.object).result = .error chain) :
    (j.run w).result = .error (.moduleLoad j.object chain) ∧
      (j.run w).trace.calls = [.load j.object] := by
  rw [run_eq_of_load_error hload]
  exact ⟨rfl, by simp [banner]⟩

theorem run_of_load_ok {h : Host} (hload : (w.load j.object).result = .ok h) :
    (j.run w).result = (j.proceed w h).result ∧
      (j.run w).trace.calls = .load j.object :: (j.proceed w h).trace.calls := by
  rw [run_eq_of_load_ok hload]
  exact ⟨rfl, by simp [banner, loaded]⟩

/-- How a job that came to `r` deals with a module it loaded, `last` being its last call and
`middle` the calls between the first one and that. -/
structure ModuleKept (object : Path) (r : JobResult) (middle : List Call) (last : Call) : Prop where
  calls : r.trace.calls = .load object :: middle ++ [last]
  untouched : ∀ c ∈ middle, c.isOwnership = false
  given_up : last = .release ∨ last = .close
  released_iff_ok : last = .release ↔ ∃ summary, r.result = .ok summary
  released_iff_disconnected : last = .release ↔ ∃ link, .disconnect link ∈ r.trace.calls
  closed_iff : last = .close ↔
    (∃ e, r.result = .error (.config e)) ∨ ∃ total, r.result = .error (.noAttachment total)
  unused : ∀ e, r.result = .error (.config e) → r.trace.calls = [.load object, .close]

theorem moduleKept_of_config_error {object : Path} {r : JobResult} {e : ConfigError}
    (hresult : r.result = .error (.config e)) (hcalls : r.trace.calls = [.load object, .close]) :
    ModuleKept object r [] .close where
  calls := hcalls
  untouched := fun _ hc => absurd hc List.not_mem_nil
  given_up := Or.inr rfl
  released_iff_ok := by simp [hresult]
  released_iff_disconnected := by simp [hcalls]
  closed_iff := by simp [hresult]
  unused := fun _ _ => hcalls

theorem moduleKept_of_attachAll {object : Path} {r : JobResult} {h : Host} {ds : List Directive}
    (hresult : r.result = (attachAll h ds).report.result)
    (hcalls : r.trace.calls = .load object :: (attachAll h ds).trace.calls) :
    ModuleKept object r (Attachment.processAll h ds.length 1 .fresh ds).trace.calls
      (Attachment.lastCall (attachAll h ds).report) where
  calls := by rw [hcalls, Attachment.calls_attachAll, List.cons_append]
  untouched := fun _ hc => Attachment.not_isOwnership_of_mem_processAll h ds hc
  given_up := Attachment.lastCall_cases _
  released_iff_ok := by
    rw [hresult]
    exact Attachment.lastCall_eq_release_iff_result _
  released_iff_disconnected := by
    rw [hcalls, Attachment.lastCall_eq_release_iff_disconnect]
    simp
  closed_iff := by
    rw [hresult]
    unfold Attachment.lastCall RunReport.result
    split <;> simp
  unused := by
    intro e he
    rw [hresult] at he
    unfold RunReport.result at he
    split at he <;> simp at he

variable (w : World) (j : Job)

/-- A module that cannot be loaded is left alone. One that was loaded is given up by the last call
and by no other: it is handed over if the job succeeded, which is if a link was disconnected, and
closed after every error, at once if there is no configuration. -/
theorem run_ownership :
    match (w.load j.object).result with
    | .error chain =>
      (j.run w).result = .error (.moduleLoad j.object chain) ∧
        (j.run w).trace.calls = [.load j.object]
    | .ok _ => ∃ middle last, ModuleKept j.object (j.run w) middle last := by
  cases hload : (w.load j.object).result with
  | error chain => exact run_of_load_error hload
  | ok h =>
    obtain ⟨hresult, hcalls⟩ := run_of_load_ok hload
    rcases proceed_cases w j h with ⟨e, he, hclose⟩ | ⟨ds, hds, hattach⟩
    · rw [he] at hresult
      rw [hclose] at hcalls
      exact ⟨[], .close, moduleKept_of_config_error hresult hcalls⟩
    · rw [hds] at hresult
      rw [hattach] at hcalls
      exact ⟨_, _, moduleKept_of_attachAll hresult hcalls⟩

end Job

end ProbeLoader
