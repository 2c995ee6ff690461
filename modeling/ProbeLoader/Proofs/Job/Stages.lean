import ProbeLoader.Proofs.Job.Accounting

/-!
# The first stage that fails

A job loads its module, opens and reads its configuration, and attaches the directives. The first
of these stages that fails decides what the job comes to, and none of the later ones has left a
trace by then: a job without a module does not depend on its configuration, and one without a
configuration shows no directive, checks nothing and asks its module for nothing.
-/

namespace ProbeLoader

open Reading

namespace RunReport

theorem result_of_none (r : RunReport) (hnone : ∀ o ∈ r.outcomes, o.2 ≠ none) :
    r.result = .error (.noAttachment r.outcomes.length) := by
  have hzero : r.summary.succeeded = 0 := by
    apply List.countP_eq_zero.mpr
    intro o ho hsucceeded
    exact hnone o ho (Option.isNone_iff_eq_none.mp hsucceeded)
  have hfailed : ¬ r.summary.isSuccess = true := by
    rw [RunSummary.isSuccess_iff, hzero]
    exact Nat.lt_irrefl 0
  unfold result
  rw [if_neg hfailed]
  rfl

theorem result_of_some (r : RunReport) (hsome : ∃ o ∈ r.outcomes, o.2 = none) :
    r.result = .ok ⟨r.outcomes.length, r.outcomes.countP fun o => o.2.isNone⟩ := by
  obtain ⟨o, ho, hsucceeded⟩ := hsome
  have hpos : r.summary.isSuccess = true := by
    rw [RunSummary.isSuccess_iff]
    apply List.countP_pos_iff.mpr
    exact ⟨o, ho, Option.isNone_iff_eq_none.mpr hsucceeded⟩
  unfold result
  rw [if_pos hpos]
  rfl

end RunReport

namespace Job

/-- What a job comes to, by the first of its stages that fails. -/
inductive Course (w : World) (j : Job) : Except RunError RunSummary → Prop where
  | unloaded {chain : Chain} : (w.load j.object).result = .error chain →
      Course w j (.error (.moduleLoad j.object chain))
  | unopened {h : Host} {path : Path} {e : OsError} : (w.load j.object).result = .ok h →
      j.config = .file path → w.files.openFile path = .error e →
      Course w j (.error (.config (.cannotOpen path.shown e.message)))
  | unread {h : Host} {s : Stream} {message : String} : (w.load j.object).result = .ok h →
      Opened w j s → s.failure = some message → ¬ Exceeds j.cap s.delivered →
      Course w j (.error (.config (.cannotRead j.config.shown message)))
  | empty {h : Host} {s : Stream} : (w.load j.object).result = .ok h → Opened w j s →
      s.failure = none ∨ Exceeds j.cap s.delivered → upTo j.cap (acceptedIn 1 s.delivered) = [] →
      Course w j (.error (.config (.noDirectives j.config.shown)))
  | unattached {h : Host} {s : Stream} {ds : List Directive} : (w.load j.object).result = .ok h →
      Opened w j s → s.failure = none ∨ Exceeds j.cap s.delivered →
      upTo j.cap (acceptedIn 1 s.delivered) = ds → ds ≠ [] →
      (∀ o ∈ (attachAll h ds).report.outcomes, o.2 ≠ none) →
      Course w j (.error (.noAttachment ds.length))
  | attached {h : Host} {s : Stream} {ds : List Directive} : (w.load j.object).result = .ok h →
      Opened w j s → s.failure = none ∨ Exceeds j.cap s.delivered →
      upTo j.cap (acceptedIn 1 s.delivered) = ds → ds ≠ [] →
      (∃ o ∈ (attachAll h ds).report.outcomes, o.2 = none) →
      Course w j (.ok ⟨ds.length, (attachAll h ds).report.outcomes.countP fun o => o.2.isNone⟩)

section

variable {w : World} {j : Job} {h : Host}

theorem directives_of_opened {s : Stream} {ds : List Directive} (hopen : Opened w j s)
    (hended : s.failure = none ∨ Exceeds j.cap s.delivered)
    (hds : upTo j.cap (acceptedIn 1 s.delivered) = ds) (hne : ds ≠ []) :
    (j.readConfig w).2 = .ok ds := by
  rw [readConfig_of_opened hopen]
  exact (directives_eq_ok_iff j.config).mpr ⟨hended, hds, hne⟩

theorem length_outcomes_attachAll (h : Host) (ds : List Directive) :
    (attachAll h ds).report.outcomes.length = ds.length :=
  Attachment.total_attachAll h ds

theorem Course.result_eq {r : Except RunError RunSummary} (hr : Course w j r) :
    (j.run w).result = r := by
  cases hr with
  | unloaded hload => rw [run_eq_of_load_error hload]
  | unopened hload hconfig hopen =>
    apply result_of_config_error hload
    rw [readConfig_of_not_opened hconfig hopen]
  | unread hload hopen hfailure hwithin =>
    apply result_of_config_error hload
    rw [readConfig_of_opened hopen]
    exact directives_of_failure j.config hfailure hwithin
  | empty hload hopen hended hnil =>
    apply result_of_config_error hload
    rw [readConfig_of_opened hopen]
    dsimp only
    rw [directives_of_no_failure j.config hended, hnil]
  | @unattached h s ds hload hopen hended hds hne hnone =>
    rw [result_of_directives hload (directives_of_opened hopen hended hds hne),
      RunReport.result_of_none _ hnone, length_outcomes_attachAll]
  | @attached h s ds hload hopen hended hds hne hsome =>
    rw [result_of_directives hload (directives_of_opened hopen hended hds hne),
      RunReport.result_of_some _ hsome, length_outcomes_attachAll]

theorem exists_course (w : World) (j : Job) : ∃ r, Course w j r := by
  cases hload : (w.load j.object).result with
  | error chain => exact ⟨_, .unloaded hload⟩
  | ok h =>
    rcases opened_or_not w j with ⟨s, hopen⟩ | ⟨path, e, hconfig, hopen⟩
    · by_cases hended : s.failure = none ∨ Exceeds j.cap s.delivered
      · by_cases hnil : upTo j.cap (acceptedIn 1 s.delivered) = []
        · exact ⟨_, .empty hload hopen hended hnil⟩
        · by_cases hsome : ∃ o ∈
              (attachAll h (upTo j.cap (acceptedIn 1 s.delivered))).report.outcomes, o.2 = none
          · exact ⟨_, .attached hload hopen hended rfl hnil hsome⟩
          · refine ⟨_, .unattached hload hopen hended rfl hnil ?_⟩
            intro o ho hsucceeded
            exact hsome ⟨o, ho, hsucceeded⟩
      · rw [not_or] at hended
        obtain ⟨message, hfailure⟩ := Option.ne_none_iff_exists'.mp hended.1
        exact ⟨_, .unread hload hopen hfailure hended.2⟩
    · exact ⟨_, .unopened hload hconfig hopen⟩

theorem result_eq_iff_course {r : Except RunError RunSummary} :
    (j.run w).result = r ↔ Course w j r := by
  constructor
  · intro hr
    obtain ⟨r', hcourse⟩ := exists_course w j
    rwa [← hr, hcourse.result_eq]
  · intro hcourse
    exact hcourse.result_eq

/-- A configuration fails a job if and only if the module was loaded before. -/
theorem exists_of_config_error {e : ConfigError} (hresult : (j.run w).result = .error (.config e)) :
    ∃ h, (w.load j.object).result = .ok h ∧ (j.readConfig w).2 = .error e := by
  cases hload : (w.load j.object).result with
  | error chain =>
    rw [run_eq_of_load_error hload] at hresult
    exact nomatch hresult
  | ok h =>
    refine ⟨h, rfl, ?_⟩
    cases hconfig : (j.readConfig w).2 with
    | error e' =>
      rw [result_of_config_error hload hconfig] at hresult
      rw [RunError.config.inj (Except.error.inj hresult)]
    | ok ds =>
      rw [result_of_directives hload hconfig] at hresult
      unfold RunReport.result at hresult
      split at hresult
      · exact nomatch hresult
      · exact nomatch hresult

/-- Reading a configuration logs nothing but skipped lines and that a cap was reached. -/
theorem mem_readConfig_log {r : Log.Record} (hr : r ∈ (j.readConfig w).1) :
    (∃ e, r = skipped j.config e) ∨ ∃ n, r = capped j.config n := by
  rcases opened_or_not w j with ⟨s, hopen⟩ | ⟨path, e, hconfig, hopen⟩
  · rw [readConfig_of_opened hopen] at hr
    exact mem_log_ofItems j.config j.cap 0 1 s.items hr
  · rw [readConfig_of_not_opened hconfig hopen] at hr
    exact absurd hr List.not_mem_nil

end

/-- What a job has done that ends for want of directives. -/
structure Unconfigured (w : World) (j : Job) : Prop where
  calls : (j.run w).trace.calls = [.load j.object, .close]
  lines : (j.run w).trace.lines =
    ["eBPF Multi-Probe Loader", "========================",
      s!"Object file: {j.object.shown}", s!"Config file: {j.config.shown}", "",
      "Loading eBPF object file...", "  ✓ eBPF object loaded successfully", "",
      s!"Reading configuration from {j.config.shown}..."]
  unparsed : ∀ line ∈ (j.run w).trace.lines, line.startsWith "  Parsed: " = false
  records : ∃ read, (j.run w).trace.records = (w.load j.object).log ++ read ∧
    ∀ r ∈ read, (∃ e, r = skipped j.config e) ∨ ∃ n, r = capped j.config n
  /-- The pin directories are not asked, whether they should be checked or not. -/
  unchecked : ∀ preflight isBpf,
    ({ j with preflight := preflight }).run
      { w with files := { w.files with isBpf := isBpf } } = j.run w

/-- How the stages of a job depend on each other. -/
structure InStages (w : World) (j : Job) : Prop where
  result : ∀ r, (j.run w).result = r ↔ Course w j r
  /-- Without a module it does not matter what the configuration holds, whether there is one, where
  it is cut off and what would be checked. -/
  unloaded : ∀ chain, (w.load j.object).result = .error chain →
    ∀ (w' : World) (j' : Job), w'.load j.object = w.load j.object → j'.object = j.object →
      j'.config = j.config → j'.run w' = j.run w
  unconfigured : ∀ e, (j.run w).result = .error (.config e) → Unconfigured w j

section

variable {w : World} {j : Job} {h : Host} {e : ConfigError}

theorem lines_of_config_error (hload : (w.load j.object).result = .ok h)
    (hconfig : (j.readConfig w).2 = .error e) :
    (j.run w).trace.lines =
      ["eBPF Multi-Probe Loader", "========================",
        s!"Object file: {j.object.shown}", s!"Config file: {j.config.shown}", "",
        "Loading eBPF object file...", "  ✓ eBPF object loaded successfully", "",
        s!"Reading configuration from {j.config.shown}..."] := by
  rw [run_eq_of_load_ok hload, proceed_eq_of_error hconfig]
  dsimp only
  rw [Trace.lines_append, Trace.lines_append, Trace.lines_append, Trace.lines_cons_call,
    Trace.lines_map_log, Trace.lines_append, Trace.lines_cons_say, Trace.lines_map_log]
  rfl

theorem unmarked_of_config_error (hload : (w.load j.object).result = .ok h)
    (hconfig : (j.readConfig w).2 = .error e) : (j.run w).trace.marks = [] := by
  rw [run_eq_of_load_ok hload, proceed_eq_of_error hconfig]
  dsimp only
  rw [Trace.marks_append, marks_start, List.cons_append,
    Trace.marks_cons_say_of_not (isMarked_readingLine j), Trace.marks_append, Trace.marks_map_log]
  rfl

theorem run_eq_unchecked (hload : (w.load j.object).result = .ok h)
    (hconfig : (j.readConfig w).2 = .error e) (preflight : Bool)
    (isBpf : Path → Except OsError Bool) :
    ({ j with preflight := preflight }).run
      { w with files := { w.files with isBpf := isBpf } } = j.run w := by
  have hread : ({ j with preflight := preflight }).readConfig
      { w with files := { w.files with isBpf := isBpf } } = j.readConfig w := rfl
  have hconfig' := hconfig
  rw [← hread] at hconfig'
  rw [run_eq_of_load_ok hload, proceed_eq_of_error hconfig, run_eq_of_load_ok (by exact hload),
    proceed_eq_of_error hconfig', hread]
  rfl

theorem unconfigured_of_config_error (hresult : (j.run w).result = .error (.config e)) :
    Unconfigured w j := by
  obtain ⟨h, hload, hconfig⟩ := exists_of_config_error hresult
  refine ⟨?_, lines_of_config_error hload hconfig, ?_, ?_, ?_⟩
  · rw [run_eq_of_load_ok hload, proceed_eq_of_error hconfig]
    simp [banner, loaded]
  · intro line hline
    apply Bool.eq_false_iff.mpr
    intro hparsed
    have hmarked : isMarked line = true := List.any_eq_true.mpr ⟨_, List.mem_cons_self, hparsed⟩
    have hmem : line ∈ (j.run w).trace.lines.filter isMarked :=
      List.mem_filter.mpr ⟨hline, hmarked⟩
    rw [← Trace.lines_marks, unmarked_of_config_error hload hconfig] at hmem
    exact absurd hmem List.not_mem_nil
  · refine ⟨(j.readConfig w).1, ?_, fun r hr => mem_readConfig_log hr⟩
    rw [run_eq_of_load_ok hload, proceed_eq_of_error hconfig]
    simp [banner, loaded]
  · intro preflight isBpf
    exact run_eq_unchecked hload hconfig preflight isBpf

theorem run_eq_of_unloaded {chain : Chain} (hload : (w.load j.object).result = .error chain)
    {w' : World} {j' : Job} (hsame : w'.load j.object = w.load j.object)
    (hobject : j'.object = j.object) (hconfig : j'.config = j.config) : j'.run w' = j.run w := by
  have hload' : (w'.load j'.object).result = .error chain := by
    rw [hobject, hsame]
    exact hload
  rw [run_eq_of_load_error hload, run_eq_of_load_error hload']
  unfold banner
  rw [hobject, hconfig, hsame]

end

/-- The first stage of a job that fails decides what it comes to, and no later one leaves a
trace. -/
theorem run_inStages (w : World) (j : Job) : InStages w j := by
  refine ⟨fun r => result_eq_iff_course, ?_, ?_⟩
  · intro chain hload w' j' hsame hobject hconfig
    exact run_eq_of_unloaded hload hsame hobject hconfig
  · intro e hresult
    exact unconfigured_of_config_error hresult

end Job

end ProbeLoader
