import ProbeLoader.Proofs.Attachment.Calls
import ProbeLoader.Proofs.Job.Configured

/-!
# Jobs with and without checks

The checks before attaching ask for capabilities and look at every pin directory. They may find
much to say, but all that they do is say it. A job that checks and one that does not go the same
way, event by event, except for warnings that stand between reading the configuration and attaching
its directives.
-/

namespace ProbeLoader

theorem Preflight.eq_warn_of_mem_records {files : Files} {ds : List Directive} {r : Log.Record}
    (hr : r ∈ records files ds) : ∃ message, r = .warn message := by
  rcases List.mem_append.mp hr with hr | hr
  · obtain ⟨message, _, rfl⟩ := List.mem_map.mp hr
    exact ⟨message, rfl⟩
  · obtain ⟨message, _, rfl⟩ := List.mem_map.mp hr
    exact ⟨message, rfl⟩

namespace Job

/-- The job that checks before attaching, or the one that does not, and is the same otherwise. -/
def checking (j : Job) (preflight : Bool) : Job := { j with preflight := preflight }

/-- What a job logs until its configuration was read, in its checks, and while attaching. -/
inductive LogParts (w : World) (j : Job) : (read checked attached : List Log.Record) → Prop where
  | unloaded {chain : Chain} : (w.load j.object).result = .error chain →
      LogParts w j (w.load j.object).log [] []
  | unconfigured {h : Host} {e : ConfigError} : (w.load j.object).result = .ok h →
      (j.readConfig w).2 = .error e →
      LogParts w j ((w.load j.object).log ++ (j.readConfig w).1) [] []
  | configured {h : Host} {ds : List Directive} : (w.load j.object).result = .ok h →
      (j.readConfig w).2 = .ok ds →
      LogParts w j ((w.load j.object).log ++ (j.readConfig w).1)
        (Preflight.records w.files ds) (attachAll h ds).trace.records

/-- What the checks change about a job. -/
structure OnlyWarned (w : World) (j : Job) : Prop where
  result : ((j.checking true).run w).result = ((j.checking false).run w).result
  calls : ((j.checking true).run w).trace.calls = ((j.checking false).run w).trace.calls
  output : ((j.checking true).run w).trace.output = ((j.checking false).run w).trace.output
  records : ∃ read checked attached, LogParts w j read checked attached ∧
    (∀ r ∈ checked, r.level = .warn) ∧
    ((j.checking true).run w).trace.records = read ++ checked ++ attached ∧
    ((j.checking false).run w).trace.records = read ++ attached
  /-- The warnings stand together, and all other events are the same and in the same order. -/
  events : ∃ front checked back,
    ((j.checking true).run w).trace = front ++ List.map Event.log checked ++ back ∧
    ((j.checking false).run w).trace = front ++ back
  /-- Without the checks nothing is asked about capabilities and pin directories. -/
  unasked : ∀ isBpf capable, (j.checking false).run
    { w with files := { w.files with isBpf := isBpf, capable := capable } } =
      (j.checking false).run w

section

variable {w : World} {j : Job}

@[simp] theorem banner_checking (preflight : Bool) : (j.checking preflight).banner = j.banner := rfl

@[simp] theorem readingLine_checking (preflight : Bool) :
    (j.checking preflight).readingLine = j.readingLine := rfl

@[simp] theorem object_checking (preflight : Bool) : (j.checking preflight).object = j.object := rfl

@[simp] theorem readConfig_checking (preflight : Bool) :
    (j.checking preflight).readConfig w = j.readConfig w := rfl

@[simp] theorem checks_checking (preflight : Bool) (ds : List Directive) :
    (j.checking preflight).checks w ds =
      if preflight then (Preflight.records w.files ds).map .log else [] := rfl

@[simp] theorem records_parsedLines (ds : List Directive) : (parsedLines ds).records = [] := by
  unfold parsedLines
  rw [Trace.records_append, Trace.records_map_say]
  rfl

theorem LogParts.level_of_mem {read checked attached : List Log.Record}
    (hparts : LogParts w j read checked attached) {r : Log.Record} (hr : r ∈ checked) :
    r.level = .warn := by
  cases hparts with
  | unloaded => exact absurd hr List.not_mem_nil
  | unconfigured => exact absurd hr List.not_mem_nil
  | configured =>
    obtain ⟨message, rfl⟩ := Preflight.eq_warn_of_mem_records hr
    rfl

/-- Up to the end of reading and from attaching on, a job does not know whether it checks. -/
theorem exists_parts_checking (w : World) (j : Job) :
    ∃ result front checked back, LogParts w j (Trace.records front) checked (Trace.records back) ∧
      (j.checking true).run w = ⟨result, front ++ List.map Event.log checked ++ back⟩ ∧
      (j.checking false).run w = ⟨result, front ++ back⟩ := by
  cases hload : (w.load j.object).result with
  | error chain =>
    have hrun (preflight : Bool) := run_eq_of_load_error (j := j.checking preflight) hload
    refine ⟨.error (.moduleLoad j.object chain),
      j.banner ++ .call (.load j.object) :: (w.load j.object).log.map .log, [], [], ?_, ?_, ?_⟩
    · have hparts := LogParts.unloaded hload
      simpa [banner] using hparts
    · simp [hrun]
    · simp [hrun]
  | ok h =>
    have hrun (preflight : Bool) := run_eq_of_load_ok (j := j.checking preflight) hload
    cases hconfig : (j.readConfig w).2 with
    | error e =>
      have hproceed (preflight : Bool) :=
        proceed_eq_of_error (j := j.checking preflight) (h := h) hconfig
      refine ⟨.error (.config e), j.banner ++ .call (.load j.object) ::
        (w.load j.object).log.map .log ++ loaded ++
          .say j.readingLine :: (j.readConfig w).1.map .log, [], [.call .close], ?_, ?_, ?_⟩
      · have hparts := LogParts.unconfigured hload hconfig
        simpa [banner, loaded] using hparts
      · simp [hrun, hproceed]
      · simp [hrun, hproceed]
    | ok ds =>
      -- Only here the jobs get as far as the checks, and both attach the same directives.
      have hproceed (preflight : Bool) :=
        proceed_eq_of_ok (j := j.checking preflight) (h := h) hconfig
      refine ⟨(attachAll h ds).report.result, j.banner ++ .call (.load j.object) ::
        (w.load j.object).log.map .log ++ loaded ++ .say j.readingLine ::
          (j.readConfig w).1.map .log ++ parsedLines ds, Preflight.records w.files ds,
        (attachAll h ds).trace, ?_, ?_, ?_⟩
      · have hparts := LogParts.configured hload hconfig
        simpa [banner, loaded] using hparts
      · simp [hrun, hproceed]
      · simp [hrun, hproceed]

end

/-- The checks before attaching warn and do nothing else: the result, the calls and the output of a
job are the same without them, and so are its records but for those of the checks. -/
theorem run_onlyWarned (w : World) (j : Job) : OnlyWarned w j := by
  obtain ⟨result, front, checked, back, hparts, hon, hoff⟩ := exists_parts_checking w j
  refine ⟨?_, ?_, ?_, ?_, ?_, ?_⟩
  · rw [hon, hoff]
  · rw [hon, hoff]
    simp
  · rw [hon, hoff]
    simp [Trace.output]
  · refine ⟨front.records, checked, back.records, hparts, ?_, ?_, ?_⟩
    · intro r hr
      exact hparts.level_of_mem hr
    · rw [hon]
      simp
    · rw [hoff]
      simp
  · refine ⟨front, checked, back, ?_, ?_⟩
    · rw [hon]
    · rw [hoff]
  · intro isBpf capable
    rfl

end Job

end ProbeLoader
