import ProbeLoader.Proofs.Job.Speakers
import ProbeLoader.Proofs.Log.Filtering
import ProbeLoader.Proofs.Program.Exit

/-!
# Runs that differ in the log level

The log level decides what is seen of the log and nothing else. Two runs of the program whose
command lines differ in the option for the level do the same, and their logs hold the same records.
As long as no times are shown, the log of the lower level is that of the other one with the output
of some records deleted: of those above the level, those forwarded from the BPF library among them.
-/

namespace ProbeLoader

/-- Whether a printed message is seen under a level. -/
def PrintLevel.isSeen : PrintLevel → Log.Level → Bool
  | .warn, l => l != .error
  | .info, l => l == .debug || l == .trace
  | .debug, l => l == .trace

theorem Manifest.admits_forwarded (l : Log.Level) (p : PrintLevel × String) :
    l.admits (forwarded p) = p.1.isSeen l := by
  obtain ⟨level, message⟩ := p
  cases level <;> cases l <;> rfl

namespace Invocation

/-- Standard error under the lower of two levels without times, and under the other one. -/
structure Nested (l l' : Log.Level) (i i' : Invocation) : Prop where
  outer : ∀ time, i'.run.stderr time =
    String.join ((i'.run.records.filter l'.admits).map (Log.Console.shown i'.terminal.usesColors))
  inner : ∀ time, i.run.stderr time =
    String.join (((i'.run.records.filter l'.admits).filter l.admits).map
      (Log.Console.shown i'.terminal.usesColors))

/-- What two invocations have in common that differ in the log level. -/
structure SameButLevel (l l' : Log.Level) (o : Options) (i i' : Invocation) : Prop where
  parsed : Arguments.read i'.args = .ok { o with logLevel := l' }
  exitCode : i.run.exitCode = i'.run.exitCode
  stdout : i.run.stdout = i'.run.stdout
  calls : i.run.calls = i'.run.calls
  requests : i.requests = i'.requests
  records : i.run.records = i'.run.records
  nested : l.rank ≤ l'.rank → l'.rank ≤ Log.Level.info.rank → Nested l l' i i'
  nested' : l'.rank ≤ l.rank → l.rank ≤ Log.Level.info.rank → Nested l' l i' i
  /-- The messages of the library come first, each as a record of its own level. -/
  forwarded : ∃ own,
    i.run.records = (Manifest.printed i.files o.object).map Manifest.forwarded ++ own ∧
      (∀ r ∈ own, r.target = Log.ownTarget) ∧
      ∀ m : Log.Level, i.run.records.filter m.admits =
        ((Manifest.printed i.files o.object).filter fun p => p.1.isSeen m).map Manifest.forwarded ++
          own.filter m.admits

/-- The log level of an invocation is there for what is seen of the log. -/
structure LevelInert (o : Options) (i : Invocation) : Prop where
  /-- Any level may be asked for at one place of the arguments. -/
  placed : ∃ before given after, i.args = before ++ given ++ after ∧
    Utf8.encode "--" ∉ before ∧ Arguments.ChoosesLevel o.logLevel given ∧
    ∀ l l' given given', Arguments.ChoosesLevel l given → Arguments.ChoosesLevel l' given' →
      SameButLevel l l' { o with logLevel := l } { i with args := before ++ given ++ after }
        { i with args := before ++ given' ++ after }
  /-- Wherever it was asked for, another one may be asked for, or none. -/
  varied : ∀ before given after l l' given', i.args = before ++ given ++ after →
    Utf8.encode "--" ∉ before → Arguments.SetsLevel l given → Arguments.ChoosesLevel l' given' →
      SameButLevel l l' o i { i with args := before ++ given' ++ after }

section

variable {i i' : Invocation} {o : Options} {l l' : Log.Level}

theorem stderr_of_read (hread : Arguments.read i.args = .ok o)
    (hlevel : o.logLevel.rank ≤ Log.Level.info.rank) (time : String) :
    i.run.stderr time =
      String.join ((i.run.records.filter o.logLevel.admits).map
        (Log.Console.shown i.terminal.usesColors)) := by
  rw [run_of_read hread]
  exact Log.Console.render_eq_remains hlevel time _

/-- Of two levels without times, the lower one shows what the other one shows but for the records
above it. -/
theorem nested_of_read (hread : Arguments.read i.args = .ok o)
    (hread' : Arguments.read i'.args = .ok { o with logLevel := l' })
    (hterminal : i.terminal = i'.terminal) (hrecords : i.run.records = i'.run.records)
    (hle : o.logLevel.rank ≤ l'.rank) (hlevel : l'.rank ≤ Log.Level.info.rank) :
    Nested o.logLevel l' i i' := by
  refine ⟨fun time => stderr_of_read hread' hlevel time, fun time => ?_⟩
  rw [Log.Console.filter_admits hle, ← hrecords, ← hterminal]
  exact stderr_of_read hread (Nat.le_trans hle hlevel) time

theorem run_forwarded (hread : Arguments.read i.args = .ok o) : ∃ own,
    i.run.records = (Manifest.printed i.files o.object).map Manifest.forwarded ++ own ∧
      ∀ r ∈ own, r.target = Log.ownTarget := by
  obtain ⟨own, hrecords, hown⟩ := Job.exists_own_records i.world o.job
  have hlog : (i.world.load o.job.object).log =
      (Manifest.printed i.files o.object).map Manifest.forwarded :=
    Manifest.log_load i.files o.object
  rw [hlog] at hrecords
  rw [run_of_read hread]
  unfold Ending.records
  dsimp only
  rw [hrecords]
  cases (o.job.run i.world).result with
  | ok summary => exact ⟨own, List.append_nil _, hown⟩
  | error e =>
    refine ⟨own ++ [.error e.message], List.append_assoc _ _ _, ?_⟩
    intro r hr
    rcases List.mem_append.mp hr with hr | hr
    · exact hown r hr
    · obtain rfl := List.mem_singleton.mp hr
      rfl

theorem filter_forwarded (m : Log.Level) (ps : List (PrintLevel × String)) :
    (ps.map Manifest.forwarded).filter m.admits =
      (ps.filter fun p => p.1.isSeen m).map Manifest.forwarded := by
  rw [List.filter_map]
  congr 1
  apply List.filter_congr
  intro p _
  exact Manifest.admits_forwarded m p

theorem sameButLevel_of_read {args' : List Arguments.Raw} (hread : Arguments.read i.args = .ok o)
    (hread' : Arguments.read args' = .ok { o with logLevel := l' }) :
    SameButLevel o.logLevel l' o i { i with args := args' } := by
  -- A job knows neither the level nor the console, so both runs are runs of the same job.
  have hrun := run_of_read hread
  have hrun' := run_of_read (i := { i with args := args' }) hread'
  have hrecords : i.run.records = ({ i with args := args' } : Invocation).run.records := by
    rw [hrun, hrun']
    rfl
  obtain ⟨own, hforwarded, hown⟩ := run_forwarded hread
  refine ⟨hread', ?_, ?_, ?_, ?_, hrecords, nested_of_read hread hread' rfl hrecords,
    nested_of_read (i := { i with args := args' }) hread' hread rfl hrecords.symm, own, hforwarded,
    hown, ?_⟩
  · rw [hrun, hrun']
    rfl
  · rw [hrun, hrun']
    rfl
  · rw [hrun, hrun']
    rfl
  · rw [requests_of_read hread, requests_of_read (i := { i with args := args' }) hread']
    rfl
  · intro m
    rw [hforwarded, List.filter_append, filter_forwarded]

/-- The log level affects what is seen of the log and nothing else. -/
theorem run_levelInert (hread : Arguments.read i.args = .ok o) : LevelInert o i := by
  constructor
  · obtain ⟨before, given, after, hargs, hbefore, hgiven, hread⟩ :=
      Arguments.exists_place_of_read hread
    refine ⟨before, given, after, hargs, hbefore, hgiven, ?_⟩
    intro l l' given given' hgiven hgiven'
    exact sameButLevel_of_read (i := { i with args := before ++ given ++ after })
      (hread l given hgiven) (hread l' given' hgiven')
  · intro before given after l l' given' hargs hbefore hgiven hgiven'
    rw [hargs] at hread
    obtain ⟨rfl, hread'⟩ := Arguments.read_of_varied hbefore hgiven hgiven' hread
    rw [← hargs] at hread
    exact sameButLevel_of_read hread hread'

theorem run_levelInert_printing :
    let object := Utf8.encode ("\x7b\"programs\": [[\"probe\", \"kprobe/vfs_read\"]], " ++
      "\"open_print\": [[\"warn\", \"w\"], [\"info\", \"i\"]]\x7d")
    let files := (FileTree.scratch [(.ofString "o", object)] []).view
    let bytes := Utf8.encode "/p/a probe kprobe vfs_read\nbad\n"
    let i : Invocation := ⟨[Utf8.encode "o", Utf8.encode "--log-level", Utf8.encode "warn",
      Utf8.encode "-", Utf8.encode "--no-preflight"], ⟨false, none, false⟩, files, ⟨bytes, none⟩⟩
    let o : Options := ⟨.warn, none, true, .ofString "o", "-"⟩
    Arguments.read i.args = .ok o ∧ LevelInert o i ∧
      i.run.records.map (·.level) = [.warn, .debug, .warn] ∧ i.run.exitCode = 0 := by
  intro object files bytes i o
  have hread : Arguments.read i.args = .ok o := by decide +kernel
  refine ⟨hread, run_levelInert hread, ?_⟩
  decide +kernel

end

end Invocation

end ProbeLoader
