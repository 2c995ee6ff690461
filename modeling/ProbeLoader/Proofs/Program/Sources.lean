import ProbeLoader.Files.Tree
import ProbeLoader.Proofs.Job.Configured
import ProbeLoader.Proofs.Program.Exit
import ProbeLoader.Proofs.Text.Template

/-!
# Standard input or a file

A configuration is the same whichever source it is read from. The program shows the name of the
source, and that is all it does with it: with the same bytes to read it makes the same calls and
ends with the same code, and what it writes differs in that name only.
-/

namespace ProbeLoader

namespace ConfigError

def cannotReadTemplate (cause : String) : Template :=
  .text "Failed to read config file " ++ .place ++ .text (": " ++ cause)

def noDirectivesTemplate : Template :=
  .text "No valid probe configurations found in " ++ .place

theorem fill_cannotReadTemplate (cause source : String) :
    (cannotReadTemplate cause).fill source = (cannotRead source cause).message := by
  unfold cannotReadTemplate
  rw [Template.fill_append, Template.fill_append, Template.fill_text, Template.fill_place,
    Template.fill_text, ← String.append_assoc]
  rfl

theorem fill_noDirectivesTemplate (source : String) :
    noDirectivesTemplate.fill source = (noDirectives source).message := by
  unfold noDirectivesTemplate
  rw [Template.fill_append, Template.fill_text, Template.fill_place]
  rfl

end ConfigError

namespace Reading

def skippedTemplate (e : LineError) : Log.RecordTemplate :=
  ⟨.warn, Log.ownTarget, .text "Skipping " ++ .place ++ .text (" " ++ e.message)⟩

def cappedTemplate (count : Nat) : Log.RecordTemplate :=
  ⟨.warn, Log.ownTarget, .text s!"Only the first {count} probe configuration(s) are used, " ++
    (.text "ignoring the rest of " ++ .place)⟩

theorem fill_skippedTemplate (e : LineError) (source : ConfigSource) :
    (skippedTemplate e).fill source.shown = skipped source e := by
  unfold skippedTemplate Log.RecordTemplate.fill
  rw [Template.fill_append, Template.fill_append, Template.fill_text, Template.fill_place,
    Template.fill_text, ← String.append_assoc]
  rfl

theorem fill_cappedTemplate (count : Nat) (source : ConfigSource) :
    (cappedTemplate count).fill source.shown = capped source count := by
  unfold cappedTemplate Log.RecordTemplate.fill
  rw [Template.fill_append, Template.fill_append, Template.fill_text, Template.fill_text,
    Template.fill_place]
  rfl

theorem exists_template (cap : Option Nat) (count number : Nat) (items : List Stream.Item) :
    ∃ (log : List Log.RecordTemplate) (ds : List Directive) (failure : Option String),
      ∀ source, ofItems source cap count number items =
        ⟨log.map fun r => r.fill source.shown, ds, failure⟩ := by
  induction items generalizing count number with
  | nil => exact ⟨[], [], none, fun _ => rfl⟩
  | cons item items ih =>
    cases item with
    | failure message => exact ⟨[], [], some message, fun _ => rfl⟩
    | line bytes =>
      by_cases hfull : isFull cap count = true
      · refine ⟨[cappedTemplate count], [], none, ?_⟩
        intro source
        simp [ofItems, hfull, fill_cappedTemplate]
      · cases hline : Line.parseBytes number bytes with
        | error e =>
          obtain ⟨log, ds, failure, hrest⟩ := ih count (number + 1)
          refine ⟨skippedTemplate e :: log, ds, failure, ?_⟩
          intro source
          simp [ofItems, hfull, hline, hrest, fill_skippedTemplate]
        | ok parsed =>
          cases parsed with
          | none =>
            obtain ⟨log, ds, failure, hrest⟩ := ih count (number + 1)
            refine ⟨log, ds, failure, ?_⟩
            intro source
            simp [ofItems, hfull, hline, hrest]
          | some d =>
            obtain ⟨log, ds, failure, hrest⟩ := ih (count + 1) (number + 1)
            refine ⟨log, d :: ds, failure, ?_⟩
            intro source
            simp [ofItems, hfull, hline, hrest]

end Reading

theorem Stream.exists_template (s : Stream) (cap : Option Nat) :
    ∃ (log : List Log.RecordTemplate) (result : Except Template (List Directive)),
      ∀ source, (s.reading source cap).log = log.map (fun r => r.fill source.shown) ∧
        Template.Tells ConfigError.message source.shown result (s.directives source cap) := by
  obtain ⟨log, ds, failure, hread⟩ := Reading.exists_template cap 0 1 s.items
  have hreading (source : ConfigSource) :
      s.reading source cap = ⟨log.map fun r => r.fill source.shown, ds, failure⟩ := hread source
  have hlog (source : ConfigSource) :
      (s.reading source cap).log = log.map fun r => r.fill source.shown := by
    rw [hreading]
  unfold Stream.directives
  cases failure with
  | some message =>
    refine ⟨log, .error (ConfigError.cannotReadTemplate message), ?_⟩
    intro source
    refine ⟨hlog source, ?_⟩
    rw [hreading]
    exact .error (ConfigError.fill_cannotReadTemplate message source.shown).symm
  | none =>
    cases ds with
    | nil =>
      refine ⟨log, .error ConfigError.noDirectivesTemplate, ?_⟩
      intro source
      refine ⟨hlog source, ?_⟩
      rw [hreading]
      exact .error (ConfigError.fill_noDirectivesTemplate source.shown).symm
    | cons d ds =>
      refine ⟨log, .ok (d :: ds), ?_⟩
      intro source
      refine ⟨hlog source, ?_⟩
      rw [hreading]
      exact .ok (d :: ds)

/-- What a job comes to but for the name of the source of its configuration. -/
structure JobTemplate where
  result : Except Template RunSummary
  trace : TraceTemplate

structure JobTemplate.Fits (t : JobTemplate) (r : JobResult) (name : String) : Prop where
  result : Template.Tells RunError.message name t.result r.result
  trace : r.trace = t.trace.fill name

namespace Job

variable (j : Job)

/-- The same job with another source of its configuration. -/
def reading (source : ConfigSource) : Job := { j with config := source }

def bannerTemplate : TraceTemplate :=
  [.say (.text "eBPF Multi-Probe Loader"), .say (.text "========================"),
    .say (.text s!"Object file: {j.object.shown}"), .say (.text "Config file: " ++ .place),
    .say (.text ""), .say (.text "Loading eBPF object file...")]

def readingTemplate (log : List Log.RecordTemplate) : TraceTemplate :=
  .say (.text "Reading configuration from " ++ .place ++ .text "...") :: log.map .log

theorem fill_bannerTemplate (source : ConfigSource) :
    j.bannerTemplate.fill source.shown = (j.reading source).banner := by
  simp only [bannerTemplate, TraceTemplate.fill, EventTemplate.fill, List.map_cons, List.map_nil,
    Template.fill_text, Template.fill_append, Template.fill_place]
  rfl

theorem fill_readingTemplate (log : List Log.RecordTemplate) (source : ConfigSource) :
    (readingTemplate log).fill source.shown =
      .say (j.reading source).readingLine ::
        (log.map fun r => r.fill source.shown).map Event.log := by
  simp only [readingTemplate, TraceTemplate.fill, EventTemplate.fill, List.map_cons, List.map_map,
    Template.fill_text, Template.fill_append, Template.fill_place]
  rfl

def readTemplate (l : Loading) (log : List Log.RecordTemplate) : TraceTemplate :=
  j.bannerTemplate ++ .ofTrace (.call (.load j.object) :: l.log.map .log ++ loaded) ++
    readingTemplate log

theorem fill_readTemplate (l : Loading) (log : List Log.RecordTemplate) (source : ConfigSource) :
    (j.readTemplate l log).fill source.shown =
      (j.reading source).banner ++ .call (.load j.object) :: l.log.map .log ++ loaded ++
        .say (j.reading source).readingLine ::
          (log.map fun r => r.fill source.shown).map .log := by
  unfold readTemplate
  rw [TraceTemplate.fill_append, TraceTemplate.fill_append, TraceTemplate.fill_ofTrace,
    fill_bannerTemplate, fill_readingTemplate j]
  simp

variable {j} {w : World} {source : ConfigSource} {s : Stream}

theorem readConfig_reading (hopen : Opened w (j.reading source) s) :
    (j.reading source).readConfig w =
      ((s.reading source j.cap).log, s.directives source j.cap) :=
  readConfig_of_opened hopen

variable {h : Host} {log : List Log.RecordTemplate}

theorem trace_of_reading_error (hload : (w.load j.object).result = .ok h)
    (hopen : Opened w (j.reading source) s)
    (hlog : (s.reading source j.cap).log = log.map fun r => r.fill source.shown)
    {e : ConfigError} (he : s.directives source j.cap = .error e) :
    (j.reading source).run w = ⟨.error (.config e),
      (j.readTemplate (w.load j.object) log ++ .ofTrace [.call .close]).fill source.shown⟩ := by
  have hconfig := readConfig_reading hopen
  rw [run_eq_of_load_ok (j := j.reading source) hload,
    proceed_eq_of_error (j := j.reading source) ((congrArg Prod.snd hconfig).trans he), hconfig,
    hlog, TraceTemplate.fill_append, fill_readTemplate, TraceTemplate.fill_ofTrace]
  simp only [List.append_assoc, List.cons_append]
  rfl

theorem trace_of_reading_ok (hload : (w.load j.object).result = .ok h)
    (hopen : Opened w (j.reading source) s)
    (hlog : (s.reading source j.cap).log = log.map fun r => r.fill source.shown)
    {ds : List Directive} (hds : s.directives source j.cap = .ok ds) :
    (j.reading source).run w = ⟨(attachAll h ds).report.result,
      (j.readTemplate (w.load j.object) log ++ .ofTrace (parsedLines ds ++ j.checks w ds ++
        (attachAll h ds).trace)).fill source.shown⟩ := by
  have hconfig := readConfig_reading hopen
  rw [run_eq_of_load_ok (j := j.reading source) hload,
    proceed_eq_of_ok (j := j.reading source) ((congrArg Prod.snd hconfig).trans hds), hconfig,
    hlog, TraceTemplate.fill_append, fill_readTemplate, TraceTemplate.fill_ofTrace]
  simp only [List.append_assoc, List.cons_append]
  rfl

theorem exists_template (j : Job) (load : Path → Loading) (files : Files) (s : Stream) :
    ∃ t : JobTemplate, ∀ (w : World) (source : ConfigSource), w.load = load → w.files = files →
      Opened w (j.reading source) s → t.Fits ((j.reading source).run w) source.shown := by
  cases hload : (load j.object).result with
  | error chain =>
    refine ⟨⟨.error (.text (RunError.moduleLoad j.object chain).message),
      j.bannerTemplate ++ .ofTrace (.call (.load j.object) :: (load j.object).log.map .log)⟩, ?_⟩
    rintro w source rfl _ _
    rw [run_eq_of_load_error (j := j.reading source) hload]
    refine ⟨.error (Template.fill_text _ _).symm, ?_⟩
    rw [TraceTemplate.fill_append, TraceTemplate.fill_ofTrace, fill_bannerTemplate]
    rfl
  | ok h =>
    obtain ⟨log, result, hread⟩ := s.exists_template j.cap
    cases result with
    | error message =>
      refine ⟨⟨.error message, j.readTemplate (load j.object) log ++ .ofTrace [.call .close]⟩, ?_⟩
      rintro w source rfl _ hopen
      obtain ⟨hlog, htells⟩ := hread source
      generalize hresult : s.directives source j.cap = result at htells
      cases htells with
      | error he =>
        rw [trace_of_reading_error hload hopen hlog hresult]
        exact ⟨.error he, rfl⟩
    | ok ds =>
      -- From here on the job knows the directives only, not where they come from.
      let w₀ : World := ⟨load, files, s⟩
      obtain ⟨result, hshows⟩ :=
        Template.exists_tells RunError.message (attachAll h ds).report.result
      refine ⟨⟨result, j.readTemplate (load j.object) log ++ .ofTrace (parsedLines ds ++
        j.checks w₀ ds ++ (attachAll h ds).trace)⟩, ?_⟩
      rintro w source rfl rfl hopen
      obtain ⟨hlog, htells⟩ := hread source
      generalize hresult : s.directives source j.cap = result at htells
      cases htells with
      | ok =>
        rw [trace_of_reading_ok hload hopen hlog hresult]
        exact ⟨hshows _, rfl⟩

end Job

namespace JobTemplate

def exitCode (t : JobTemplate) : Nat :=
  match t.result with
  | .ok _ => 0
  | .error _ => 1

def records (t : JobTemplate) : List Log.RecordTemplate :=
  t.trace.records ++
    match t.result with
    | .ok _ => []
    | .error message => [⟨.error, Log.ownTarget, message⟩]

variable {t : JobTemplate} {console : Log.Console} {job : Job} {r : JobResult} {name : String}

theorem Fits.exitCode_eq (hfits : t.Fits r name) :
    (Ending.ran console job r).exitCode = t.exitCode := by
  have hresult := hfits.result
  unfold Ending.exitCode exitCode
  dsimp only
  generalize r.result = result at hresult ⊢
  generalize t.result = template at hresult ⊢
  cases hresult <;> rfl

theorem Fits.calls_eq (hfits : t.Fits r name) : r.trace.calls = t.trace.calls := by
  rw [hfits.trace, TraceTemplate.calls_fill]

theorem Fits.records_eq (hfits : t.Fits r name) :
    (Ending.ran console job r).records = t.records.map fun record => record.fill name := by
  have hresult := hfits.result
  unfold Ending.records records
  dsimp only
  rw [hfits.trace, TraceTemplate.records_fill, List.map_append]
  generalize r.result = result at hresult ⊢
  generalize t.result = template at hresult ⊢
  cases hresult with
  | ok => rfl
  | error he => exact congrArg (_ ++ [Log.Record.error ·]) he

end JobTemplate

/-- What the program does but for the name of the source that it shows. -/
structure Showing where
  exitCode : Nat
  calls : List Call
  requests : List Object.Request
  stdout : Template
  stderr : (time : String) → Template

namespace Invocation

/-- The source is named on the command line beside other options, and a stream is read from it. -/
inductive ReadsFrom (i : Invocation) (o : Options) (s : Stream) : ConfigSource → Prop where
  | stdin : Arguments.read i.args = .ok { o with config := "-" } → i.stdin = s →
      ReadsFrom i o s .stdin
  | file {name : String} : name ≠ "-" → Arguments.read i.args = .ok { o with config := name } →
      i.files.openFile (.ofString name) = .ok s → ReadsFrom i o s (.file (.ofString name))

/-- Whether the program does what is to be shown, with a name at the place of the source. -/
structure Shows (i : Invocation) (x : Showing) (source : String) : Prop where
  exitCode : i.run.exitCode = x.exitCode
  calls : i.run.calls = x.calls
  requests : i.requests = x.requests
  stdout : i.run.stdout = x.stdout.fill source
  stderr : ∀ time, i.run.stderr time = (x.stderr time).fill source

theorem ReadsFrom.exists_options {i : Invocation} {o : Options} {s : Stream}
    {source : ConfigSource} (hreads : i.ReadsFrom o s source) :
    ∃ o', Arguments.read i.args = .ok o' ∧ o'.job = o.job.reading source ∧
      i.console o' = i.console o ∧ Job.Opened i.world (o.job.reading source) s := by
  cases hreads with
  | stdin hread hstdin =>
    subst hstdin
    exact ⟨_, hread, rfl, rfl, .stdin rfl⟩
  | @file name hname hread hopen =>
    refine ⟨_, hread, ?_, rfl, .file rfl hopen⟩
    unfold Options.job ConfigSource.ofName
    dsimp only
    rw [if_neg hname]
    rfl

/-- Whichever source a stream is read from, the program does the same and shows the same, except
that it shows the name of the source. -/
theorem exists_showing (o : Options) (terminal : Log.Terminal) (files : Files) (s : Stream) :
    ∃ x : Showing, ∀ (i : Invocation) (source : ConfigSource), i.terminal = terminal →
      i.files = files → i.ReadsFrom o s source → i.Shows x source.shown := by
  let load : Path → Loading := fun path => (Manifest.load files path).module
  let console : Log.Console := ⟨o.logLevel, terminal.usesColors⟩
  obtain ⟨t, ht⟩ := o.job.exists_template load files s
  refine ⟨⟨t.exitCode, t.trace.calls, (Manifest.load files o.object).requestsOf t.trace.calls,
    t.trace.output, fun time => console.renderTemplate time t.records⟩, ?_⟩
  rintro i source rfl rfl hreads
  obtain ⟨o', hread, hjob, hconsole, hopen⟩ := hreads.exists_options
  have hfits := ht i.world source rfl rfl hopen
  have hrun : i.run =
      .ran console (o.job.reading source) ((o.job.reading source).run i.world) := by
    rw [run_of_read hread, hjob, hconsole]
    rfl
  refine ⟨?_, ?_, ?_, ?_, ?_⟩
  · rw [hrun, hfits.exitCode_eq]
  · rw [hrun]
    exact hfits.calls_eq
  · rw [requests_of_read hread, hjob, hfits.calls_eq]
    exact congrArg (fun job => (Manifest.load i.files job.object).requestsOf t.trace.calls) hjob
  · rw [hrun]
    unfold Ending.stdout
    dsimp only
    rw [hfits.trace, TraceTemplate.output_fill]
  · intro time
    rw [hrun]
    unfold Ending.stderr
    dsimp only
    rw [hfits.records_eq, Log.Console.render_fill]

theorem exists_showing_either :
    let object := Utf8.encode "\x7b\"programs\": [[\"probe\", \"kprobe/vfs_read\"]]\x7d"
    let bytes := Utf8.encode "/p/a probe kprobe vfs_read\nbad\n"
    let files := (FileTree.scratch [(.ofString "o", object), (.ofString "probes", bytes)] []).view
    let terminal : Log.Terminal := ⟨false, none, false⟩
    let piped : Invocation :=
      ⟨[Utf8.encode "o", Utf8.encode "-"], terminal, files, ⟨bytes, none⟩⟩
    let named : Invocation :=
      ⟨[Utf8.encode "o", Utf8.encode "probes"], terminal, files, ⟨[], none⟩⟩
    ∃ x, piped.Shows x "<stdin>" ∧ named.Shows x "probes" ∧ x.exitCode = 0 ∧
      x.requests = [.openFile (.ofString "o"), .load,
        .attach ⟨Utf8.encode "probe", Utf8.encode "kprobe/vfs_read"⟩ (.kprobe "vfs_read"),
        .pin (.ofString "/p/a"), .disconnect] := by
  intro object bytes files terminal piped named
  let o : Options := ⟨.info, none, false, .ofString "o", "-"⟩
  obtain ⟨x, hx⟩ := exists_showing o terminal files ⟨bytes, none⟩
  have hpiped : piped.ReadsFrom o ⟨bytes, none⟩ .stdin := .stdin (by decide +kernel) rfl
  have hnamed : named.ReadsFrom o ⟨bytes, none⟩ (.file (.ofString "probes")) :=
    .file (by decide) (by decide +kernel) (by decide +kernel)
  have hshows := hx piped _ rfl rfl hpiped
  refine ⟨x, hshows, ?_, ?_, ?_⟩
  · have hshown : (ConfigSource.file (.ofString "probes")).shown = "probes" := Utf8.lossy_encode _
    rw [← hshown]
    exact hx named _ rfl rfl hnamed
  · rw [← hshows.exitCode]
    decide +kernel
  · rw [← hshows.requests]
    decide +kernel

end Invocation

end ProbeLoader
