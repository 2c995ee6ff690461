import ProbeLoader.Job
import ProbeLoader.Proofs.Config.Delivered

/-!
# Jobs with and without a configuration

How a job goes on after its module was loaded: with the directives that reading its configuration
came to, or not at all. Both are told from the stream the configuration is read from.
-/

namespace ProbeLoader

open Reading

namespace Job

/-- The stream that the configuration of a job is read from. -/
inductive Opened (w : World) (j : Job) : Stream → Prop where
  | stdin : j.config = .stdin → Opened w j w.stdin
  | file {path : Path} {stream : Stream} : j.config = .file path →
      w.files.openFile path = .ok stream → Opened w j stream

variable {w : World} {j : Job}

/-- The line that says that the configuration is read now. -/
def readingLine (j : Job) : String := s!"Reading configuration from {j.config.shown}..."

theorem opened_iff {stream : Stream} :
    Opened w j stream ↔ j.config.open? w.files w.stdin = .ok stream := by
  unfold ConfigSource.open?
  constructor
  · intro h
    cases h with
    | stdin hconfig => rw [hconfig]
    | file hconfig hopen => simp only [hconfig, hopen]
  · intro h
    cases hconfig : j.config with
    | stdin =>
      rw [hconfig] at h
      obtain rfl := Except.ok.inj h
      exact .stdin hconfig
    | file path =>
      cases hopen : w.files.openFile path with
      | error e => simp only [hconfig, hopen] at h; exact nomatch h
      | ok s =>
        simp only [hconfig, hopen] at h
        obtain rfl := Except.ok.inj h
        exact .file hconfig hopen

/-- A configuration is opened, or it is a file that cannot be. -/
theorem opened_or_not (w : World) (j : Job) :
    (∃ stream, Opened w j stream) ∨
      ∃ path e, j.config = .file path ∧ w.files.openFile path = .error e := by
  cases hconfig : j.config with
  | stdin => exact Or.inl ⟨w.stdin, .stdin hconfig⟩
  | file path =>
    cases hopen : w.files.openFile path with
    | ok stream => exact Or.inl ⟨stream, .file hconfig hopen⟩
    | error e => exact Or.inr ⟨path, e, rfl, hopen⟩

theorem readConfig_of_opened {stream : Stream} (hopen : Opened w j stream) :
    j.readConfig w =
      ((stream.reading j.config j.cap).log, stream.directives j.config j.cap) := by
  unfold readConfig
  rw [opened_iff.mp hopen]
  rfl

theorem readConfig_of_not_opened {path : Path} {e : OsError} (hconfig : j.config = .file path)
    (hopen : w.files.openFile path = .error e) :
    j.readConfig w = ([], .error (.cannotOpen path.shown e.message)) := by
  unfold readConfig ConfigSource.open?
  simp only [hconfig, hopen]
  rfl

/-- What a job checks before it attaches directives. -/
def checks (w : World) (j : Job) (ds : List Directive) : Trace :=
  if j.preflight then (Preflight.records w.files ds).map .log else []

@[simp] theorem calls_checks (w : World) (j : Job) (ds : List Directive) :
    (j.checks w ds).calls = [] := by
  unfold checks
  split
  · exact Trace.calls_map_log _
  · rfl

theorem proceed_eq_of_error {h : Host} {e : ConfigError}
    (hconfig : (j.readConfig w).2 = .error e) :
    j.proceed w h = ⟨.error (.config e),
      .say j.readingLine :: (j.readConfig w).1.map .log ++ [.call .close]⟩ := by
  unfold proceed
  dsimp only
  rw [hconfig]
  rfl

theorem proceed_eq_of_ok {h : Host} {ds : List Directive} (hconfig : (j.readConfig w).2 = .ok ds) :
    j.proceed w h = ⟨(attachAll h ds).report.result,
      .say j.readingLine :: (j.readConfig w).1.map .log ++ parsedLines ds ++ j.checks w ds ++
        (attachAll h ds).trace⟩ := by
  unfold proceed
  dsimp only
  rw [hconfig]
  rfl

theorem run_eq_of_load_error {chain : Chain} (hload : (w.load j.object).result = .error chain) :
    j.run w = ⟨.error (.moduleLoad j.object chain),
      j.banner ++ .call (.load j.object) :: (w.load j.object).log.map .log⟩ := by
  unfold run
  dsimp only
  rw [hload]

theorem run_eq_of_load_ok {h : Host} (hload : (w.load j.object).result = .ok h) :
    j.run w = ⟨(j.proceed w h).result,
      j.banner ++ .call (.load j.object) :: (w.load j.object).log.map .log ++ loaded ++
        (j.proceed w h).trace⟩ := by
  unfold run
  dsimp only
  rw [hload]

section

variable {h : Host}

theorem result_of_config_error {e : ConfigError} (hload : (w.load j.object).result = .ok h)
    (hconfig : (j.readConfig w).2 = .error e) : (j.run w).result = .error (.config e) := by
  rw [run_eq_of_load_ok hload, proceed_eq_of_error hconfig]

theorem result_of_directives {ds : List Directive} (hload : (w.load j.object).result = .ok h)
    (hconfig : (j.readConfig w).2 = .ok ds) :
    (j.run w).result = (attachAll h ds).report.result := by
  rw [run_eq_of_load_ok hload, proceed_eq_of_ok hconfig]

end

end Job

end ProbeLoader
