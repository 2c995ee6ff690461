import ProbeLoader.Files.Tree
import ProbeLoader.Host.Script
import ProbeLoader.Proofs.Attachment.Marks
import ProbeLoader.Proofs.Job.Configured
import ProbeLoader.Proofs.Job.Ownership

/-!
# From the lines of the configuration to the report

The directives that are accepted are the ones that are shown, looked up, announced and reported:
all of them, once each, in the order of their lines. Nothing that fails on the way changes that,
since a failure is an outcome of its directive and takes no directive out of the run.
-/

namespace ProbeLoader

open Reading Attachment

/-- How a job accounts for the directives it accepts from the lines of its configuration. -/
structure Accounted (w : World) (j : Job) (ls : List (List UInt8)) (ds : List Directive) :
    Prop where
  accepted : ds = upTo j.cap (acceptedIn 1 ls)
  ordered : ds.Pairwise fun d e => d.line < e.line
  /-- All of them are shown and counted before the first one is announced. Each one is announced
  by its number and looked up before the next one is announced, and at the end they are counted
  again. Nothing else is shown or looked up that way. -/
  marks : ∃ report : RunReport, report.outcomes.map (·.1) = ds ∧ (j.run w).result = report.result ∧
    (j.run w).trace.marks =
      (ds.map fun d => .say s!"  Parsed: {d.shown}") ++
      [.say s!"  ✓ Found {ds.length} probe configuration(s)"] ++
      ((ds.zipIdx 1).flatMap fun numbered =>
        [.say s!"[{numbered.2}/{ds.length}] Attaching probe: {numbered.1.shown}",
          .call (.find numbered.1.programName)]) ++
      [.say s!"Successfully attached: {report.summary.succeeded}/{ds.length} probes"]
  lookups : (j.run w).trace.calls.filterMap Call.name? = ds.map (·.programName)
  shown : ∃ succeeded : Nat, (j.run w).trace.lines.filter isMarked =
    (ds.map fun d => s!"  Parsed: {d.shown}") ++
    [s!"  ✓ Found {ds.length} probe configuration(s)"] ++
    ((ds.zipIdx 1).map fun numbered =>
      s!"[{numbered.2}/{ds.length}] Attaching probe: {numbered.1.shown}") ++
    [s!"Successfully attached: {succeeded}/{ds.length} probes"]
  total : (∃ summary, (j.run w).result = .ok summary ∧ summary.total = ds.length) ∨
    (j.run w).result = .error (.noAttachment ds.length)

namespace Job

variable {w : World} {j : Job} {h : Host} {stream : Stream} {ds : List Directive}

theorem marks_start (j : Job) (log : List Log.Record) :
    Trace.marks (j.banner ++ .call (.load j.object) :: log.map .log ++ loaded) = [] := by
  have hobject : isMarked s!"Object file: {j.object.shown}" = false :=
    isMarked_append_eq_false (by decide) _
  have hconfig : isMarked s!"Config file: {j.config.shown}" = false :=
    isMarked_append_eq_false (by decide) _
  have hbanner : j.banner.marks = [] := by
    unfold banner
    rw [Trace.marks_cons_plain (by decide), Trace.marks_cons_plain (by decide),
      Trace.marks_cons_say_of_not hobject, Trace.marks_cons_say_of_not hconfig,
      Trace.marks_cons_plain (by decide), Trace.marks_cons_plain (by decide), Trace.marks_nil]
  have hloaded : loaded.marks = [] := by
    unfold loaded
    rw [Trace.marks_cons_plain (by decide), Trace.marks_cons_plain (by decide), Trace.marks_nil]
  rw [Trace.marks_append, Trace.marks_append, hbanner, hloaded,
    Trace.marks_cons_of_not_isMark rfl, Trace.marks_map_log]
  rfl

theorem marks_parsedLines (ds : List Directive) :
    (parsedLines ds).marks = (ds.map fun d => .say s!"  Parsed: {d.shown}") ++
      [.say s!"  ✓ Found {ds.length} probe configuration(s)"] := by
  have hfound : isMarked s!"  ✓ Found {ds.length} probe configuration(s)" = true := by
    simp only [String.append_assoc]
    exact isMarked_append (by decide) _
  have hparsed : Trace.marks (ds.map fun d => .say s!"  Parsed: {d.shown}") =
      ds.map fun d => .say s!"  Parsed: {d.shown}" := by
    apply List.filter_eq_self.mpr
    intro e he
    obtain ⟨d, _, rfl⟩ := List.mem_map.mp he
    exact isMarked_append (by decide) _
  unfold parsedLines
  rw [Trace.marks_append, hparsed, Trace.marks_cons_say hfound,
    Trace.marks_cons_plain (by decide), Trace.marks_nil]

theorem marks_checks (w : World) (j : Job) (ds : List Directive) : (j.checks w ds).marks = [] := by
  unfold checks
  split
  · exact Trace.marks_map_log _
  · rfl

theorem isMarked_readingLine (j : Job) : isMarked j.readingLine = false := by
  unfold readingLine
  simp only [String.append_assoc]
  exact isMarked_append_eq_false (by decide) _

theorem marks_run (hload : (w.load j.object).result = .ok h)
    (hconfig : (j.readConfig w).2 = .ok ds) :
    (j.run w).trace.marks = (parsedLines ds).marks ++ (attachAll h ds).trace.marks := by
  rw [run_eq_of_load_ok hload, proceed_eq_of_ok hconfig]
  dsimp only
  rw [Trace.marks_append, marks_start, Trace.marks_append, Trace.marks_append, Trace.marks_append,
    Trace.marks_cons_say_of_not (isMarked_readingLine j), Trace.marks_map_log, marks_checks]
  simp

theorem names_parsedLines (ds : List Directive) :
    (parsedLines ds).marks.calls.filterMap Call.name? = [] := by
  rw [Trace.names_marks, calls_parsedLines]
  rfl

theorem lines_marks_parsedLines (ds : List Directive) :
    (parsedLines ds).marks.lines = (ds.map fun d => s!"  Parsed: {d.shown}") ++
      [s!"  ✓ Found {ds.length} probe configuration(s)"] := by
  have hlines : Trace.lines (ds.map fun d => .say s!"  Parsed: {d.shown}") =
      ds.map fun d => s!"  Parsed: {d.shown}" := by
    induction ds with
    | nil => rfl
    | cons d ds ih => exact congrArg _ ih
  rw [marks_parsedLines, Trace.lines_append, hlines]
  rfl

theorem total_of_result (h : Host) (ds : List Directive) :
    (∃ summary, (attachAll h ds).report.result = .ok summary ∧ summary.total = ds.length) ∨
      (attachAll h ds).report.result = .error (.noAttachment ds.length) := by
  have htotal := total_attachAll h ds
  unfold RunReport.result
  split
  · exact Or.inl ⟨_, rfl, htotal⟩
  · rw [htotal]
    exact Or.inr rfl

/-- The directives that a job accepts are shown, looked up, announced and reported, all of them,
once each and in the order of their lines, whatever fails on the way. -/
theorem run_accounted (hload : (w.load j.object).result = .ok h)
    (hopen : j.config.open? w.files w.stdin = .ok stream)
    (hread : stream.directives j.config j.cap = .ok ds) :
    Accounted w j stream.delivered ds := by
  obtain ⟨_, hds, _⟩ := (directives_eq_ok_iff j.config).mp hread
  have hconfig : (j.readConfig w).2 = .ok ds := by
    rw [readConfig_of_opened (opened_iff.mpr hopen)]
    exact hread
  have hresult := result_of_directives hload hconfig
  have hmarks := marks_run hload hconfig
  rw [marks_attachAll, total_attachAll] at hmarks
  refine ⟨hds.symm, ?_, ?_, ?_, ?_, ?_⟩
  · rw [← hds]
    exact pairwise_upTo j.cap (acceptedIn_pairwise 1 stream.delivered)
  · refine ⟨(attachAll h ds).report, map_fst_outcomes_attachAll h ds, hresult, ?_⟩
    rw [hmarks, marks_parsedLines, ← List.append_assoc]
    rfl
  · rw [← Trace.names_marks, hmarks, Trace.calls_append, Trace.calls_append, List.filterMap_append,
      List.filterMap_append, names_parsedLines, names_accounts]
    exact List.append_nil _
  · refine ⟨(attachAll h ds).report.summary.succeeded, ?_⟩
    rw [← Trace.lines_marks, hmarks, Trace.lines_append, Trace.lines_append,
      lines_marks_parsedLines, lines_accounts, ← List.append_assoc]
    rfl
  · rw [hresult]
    exact total_of_result h ds

/-- A directive whose program is unknown is accounted for like the one after it, and so is neither
the comment nor the line that is no directive. -/
theorem run_accounted_unknown :
    let s : Script :=
      { programs := [("count", "kprobe/vfs_read")]
        loadFailure := none
        attachFailure := fun _ => none
        pinFailure := fun _ => none
        exclusivePins := false }
    let text := "# probes\n/p/a gone kprobe a\nmistake\n/p/b count kprobe vfs_read\n"
    let w : World :=
      { load := fun _ => s.loading
        files := (FileTree.scratch [(.ofString "probes", Utf8.encode text)] []).view
        stdin := ⟨[], none⟩ }
    let j : Job := ⟨.ofString "object", .file (.ofString "probes"), none, false⟩
    let lost : Directive := ⟨2, .ofString "/p/a", "gone", .kprobe, "a"⟩
    let kept : Directive := ⟨4, .ofString "/p/b", "count", .kprobe, "vfs_read"⟩
    (w.load j.object).result = .ok s.host ∧
      j.config.open? w.files w.stdin = .ok ⟨Utf8.encode text, none⟩ ∧
      (Stream.mk (Utf8.encode text) none).directives j.config j.cap = .ok [lost, kept] ∧
      (j.run w).trace.calls.filterMap Call.name? = ["gone", "count"] := by
  intro s text w j lost kept
  have hload : (w.load j.object).result = .ok s.host := rfl
  have hopen : j.config.open? w.files w.stdin = .ok ⟨Utf8.encode text, none⟩ := by
    decide +kernel
  have hread : (Stream.mk (Utf8.encode text) none).directives j.config j.cap =
      .ok [lost, kept] := by
    decide +kernel
  exact ⟨hload, hopen, hread, (run_accounted hload hopen hread).lookups⟩

end Job

end ProbeLoader
