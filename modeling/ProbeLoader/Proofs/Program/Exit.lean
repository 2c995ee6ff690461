import ProbeLoader.Program
import ProbeLoader.Proofs.CommandLine.Level
import ProbeLoader.Proofs.Job.Ownership
import ProbeLoader.Proofs.Job.Stages
import Mathlib.Data.List.Infix

/-!
# How the program ends

The exit code is 0 or 1 and tells what became of the object. A program that was not asked for a text
about itself ends with 0 if it pinned a link and let it go, and has left the object to the kernel
then. With 1 it has closed an object that was loaded, and the error that it ended for is the last
thing the log says. The log is always there for that: no level that can be asked for is refused.
-/

namespace ProbeLoader

theorem Manifest.mem_requests_load {files : Files} {path : Path} {r : Object.Request}
    (hr : r ∈ (load files path).requests) : r = .openFile path ∨ r = .load := by
  have hsub : (load files path).requests ⊆ [.openFile path, .load] := by
    unfold load
    cases read files path with
    | error chain => simp
    | ok m => cases hopen : m.openFailure <;> cases hload : m.loadFailure <;> simp [hopen, hload]
  simpa using hsub hr

namespace Object

theorem mem_requests_disconnect {o : Object} {c : Call} (hc : .disconnect ∈ o.requests c) :
    ∃ link, c = .disconnect link := by
  cases c with
  | disconnect link => exact ⟨link, rfl⟩
  | attach p hook => cases hp : o.named? p.name <;> simp [requests, hp] at hc
  | _ => simp [requests] at hc

theorem mem_requests_close {o : Object} {c : Call} (hc : .close ∈ o.requests c) : c = .close := by
  cases c with
  | close => rfl
  | attach p hook => cases hp : o.named? p.name <;> simp [requests, hp] at hc
  | _ => simp [requests] at hc

/-- What calls ask of an object and of the library that loads it. -/
def Loading.requestsOf (l : Loading) (calls : List Call) : List Request :=
  calls.flatMap fun c =>
    match c, l.result with
    | .load _, _ => l.requests
    | c, .ok o => o.requests c
    | _, .error _ => []

theorem Loading.requestsOf_load (l : Loading) (path : Path) (calls : List Call) :
    l.requestsOf (.load path :: calls) = l.requests ++ l.requestsOf calls :=
  List.flatMap_cons

theorem Loading.requestsOf_eq {l : Loading} {o : Object} (hl : l.result = .ok o)
    {calls : List Call} (hload : ∀ path, .load path ∉ calls) :
    l.requestsOf calls = calls.flatMap o.requests := by
  unfold requestsOf
  rw [hl]
  apply List.flatMap_congr
  intro c hc
  cases c with
  | load path => exact absurd hc (hload path)
  | _ => rfl

end Object

namespace Job

variable {w : World} {j : Job} {h : Host}

/-- The ways in which a job fails. -/
inductive Failed (w : World) (j : Job) : Prop where
  | unloaded {chain : Chain} : (w.load j.object).result = .error chain → Failed w j
  | unconfigured {h : Host} {e : ConfigError} : (w.load j.object).result = .ok h →
      (j.readConfig w).2 = .error e → Failed w j
  | unattached {h : Host} {ds : List Directive} : (w.load j.object).result = .ok h →
      (j.readConfig w).2 = .ok ds →
      (∀ outcome ∈ (attachAll h ds).report.outcomes, outcome.2 ≠ none) → Failed w j

theorem failed_iff : (∃ e, (j.run w).result = .error e) ↔ Failed w j := by
  constructor
  · rintro ⟨e, he⟩
    cases hload : (w.load j.object).result with
    | error chain => exact .unloaded hload
    | ok h =>
      cases hconfig : (j.readConfig w).2 with
      | error e' => exact .unconfigured hload hconfig
      | ok ds =>
        refine .unattached hload hconfig ?_
        intro outcome houtcome hnone
        rw [result_of_directives hload hconfig,
          RunReport.result_of_some _ ⟨outcome, houtcome, hnone⟩] at he
        exact nomatch he
  · intro hfailed
    cases hfailed with
    | unloaded hload => exact ⟨_, (run_of_load_error hload).1⟩
    | unconfigured hload hconfig => exact ⟨_, result_of_config_error hload hconfig⟩
    | unattached hload hconfig hnone =>
      exact ⟨_, (result_of_directives hload hconfig).trans (RunReport.result_of_none _ hnone)⟩

theorem pin_before_disconnect_proceed {link : LinkId}
    (hc : .disconnect link ∈ (j.proceed w h).trace.calls) :
    ∃ path, [.pin link path, .disconnect link] <:+: (j.proceed w h).trace.calls := by
  rcases proceed_cases w j h with ⟨_, _, hcalls⟩ | ⟨ds, _, hcalls⟩
  · rw [hcalls] at hc
    exact nomatch List.mem_singleton.mp hc
  · rw [hcalls, Attachment.calls_attachAll] at hc ⊢
    rcases List.mem_append.mp hc with hc | hlast
    · obtain ⟨path, hpath⟩ := Attachment.pin_before_disconnect_processAll hc
      exact ⟨path, hpath.trans (List.prefix_append _ _).isInfix⟩
    · rw [List.mem_singleton] at hlast
      rcases Attachment.lastCall_cases (attachAll h ds).report with hrelease | hclose
      · simp [hrelease] at hlast
      · simp [hclose] at hlast

theorem exists_moduleKept (hload : (w.load j.object).result = .ok h) :
    ∃ middle last, ModuleKept j.object (j.run w) middle last ∧
      (j.proceed w h).trace.calls = middle ++ [last] := by
  have hkept := run_ownership w j
  rw [hload] at hkept
  obtain ⟨middle, last, hkept⟩ := hkept
  refine ⟨middle, last, hkept, ?_⟩
  have hcalls := (run_of_load_ok hload).2.symm.trans hkept.calls
  exact (List.cons.inj hcalls).2

theorem load_not_mem_proceed (hload : (w.load j.object).result = .ok h) (path : Path) :
    .load path ∉ (j.proceed w h).trace.calls := by
  obtain ⟨middle, last, hkept, hcalls⟩ := exists_moduleKept hload
  rw [hcalls]
  intro hmem
  rcases List.mem_append.mp hmem with hmiddle | hlast
  · exact absurd (hkept.untouched _ hmiddle) (by simp [Call.isOwnership])
  · rw [List.mem_singleton] at hlast
    rcases hkept.given_up with hrelease | hclose
    · simp [hrelease] at hlast
    · simp [hclose] at hlast

end Job

namespace Log.Console

/-- An error is shown under every level, with its own level before it. -/
theorem piece_error (c : Console) (time message : String) :
    c.piece time (.error message) =
      (if c.showsTime then time ++ " " else "") ++ c.levelPart .error ++ (message ++ "\n") := by
  have henabled : c.enabled .error = true := by
    unfold enabled
    cases c.maxLevel <;> rfl
  unfold piece
  rw [if_pos (by exact henabled)]
  rfl

end Log.Console

namespace Ending

def calls : Ending → List Call
  | .ran _ _ r => r.trace.calls
  | _ => []

end Ending

namespace Invocation

def requests (i : Invocation) : List Object.Request := i.run.requests i.files

/-- Whether the arguments ask for the help or for the version. -/
def AsksForText (i : Invocation) : Prop :=
  (∃ long, Arguments.read i.args = .error (.help long)) ∨ Arguments.read i.args = .error .version

inductive Fails (i : Invocation) : Prop where
  | misused {e : UsageError} : Arguments.read i.args = .error (.mistake e) → Fails i
  | failed {o : Options} : Arguments.read i.args = .ok o → o.job.Failed i.world → Fails i

/-- What the exit code of the program tells. -/
structure ExitAgrees (i : Invocation) : Prop where
  code : i.run.exitCode = 0 ∨ i.run.exitCode = 1
  zero_iff : i.run.exitCode = 0 ↔ i.AsksForText ∨
    ∃ o, Arguments.read i.args = .ok o ∧ ∃ path, [.pin path, .disconnect] <:+: i.requests
  one_iff : i.run.exitCode = 1 ↔ i.Fails
  handed_over_iff : ∀ o, Arguments.read i.args = .ok o →
    (i.run.exitCode = 0 ↔ i.run.calls.getLast? = some .release ∧ .close ∉ i.requests)
  closed_iff : ∀ o object, Arguments.read i.args = .ok o →
    (Manifest.load i.files o.object).result = .ok object →
    (i.run.exitCode = 1 ↔ ∃ before, i.requests = before ++ [.close] ∧ .close ∉ before)
  /-- The error is logged last, and the log on standard error ends with it whatever is shown. -/
  told : ∀ o, Arguments.read i.args = .ok o → i.run.exitCode = 1 →
    ∃ e, (o.job.run i.world).result = .error e ∧
      i.run.records.getLast? = some (.error e.message) ∧
      ∀ time, ∃ before, i.run.stderr time =
        before ++ (i.console o).levelPart .error ++ (e.message ++ "\n")
  logged : ∀ e, i.run ≠ .unlogged e
  /-- A level that the command line accepts is one that the log accepts. -/
  levels : ∀ g value g', Arguments.store g .logLevel value = .ok g' →
    ∃ text level, Utf8.decode? value = some text ∧ Log.parseLevel text = .ok level ∧
      g'.logLevel = some level

section

variable {i : Invocation} {o : Options} {object : Object}

theorem exitCode_of_read (hread : Arguments.read i.args = .ok o) :
    i.run.exitCode =
      match (o.job.run i.world).result with
      | .ok _ => 0
      | .error _ => 1 := by
  rw [run_of_read hread]
  rfl

theorem exitCode_eq_zero_iff (hread : Arguments.read i.args = .ok o) :
    i.run.exitCode = 0 ↔ ∃ summary, (o.job.run i.world).result = .ok summary := by
  rw [exitCode_of_read hread]
  cases (o.job.run i.world).result <;> simp

theorem exitCode_eq_one_iff (hread : Arguments.read i.args = .ok o) :
    i.run.exitCode = 1 ↔ ∃ e, (o.job.run i.world).result = .error e := by
  rw [exitCode_of_read hread]
  cases (o.job.run i.world).result <;> simp

theorem load_world (hload : (Manifest.load i.files o.object).result = .ok object) :
    (i.world.load o.job.object).result = .ok object.host := by
  change (Manifest.load i.files o.object).module.result = .ok object.host
  unfold Object.Loading.module
  rw [hload]

theorem not_loaded_world {chain : Chain}
    (hload : (Manifest.load i.files o.object).result = .error chain) :
    (i.world.load o.job.object).result = .error chain := by
  change (Manifest.load i.files o.object).module.result = .error chain
  unfold Object.Loading.module
  rw [hload]

theorem requests_of_read (hread : Arguments.read i.args = .ok o) :
    i.requests =
      (Manifest.load i.files o.object).requestsOf (o.job.run i.world).trace.calls := by
  unfold requests
  rw [run_of_read hread]
  rfl

theorem requests_of_not_loaded (hread : Arguments.read i.args = .ok o) {chain : Chain}
    (hload : (Manifest.load i.files o.object).result = .error chain) :
    i.requests = (Manifest.load i.files o.object).requests := by
  rw [requests_of_read hread, (Job.run_of_load_error (not_loaded_world hload)).2,
    Object.Loading.requestsOf_load]
  exact List.append_nil _

theorem requests_of_loaded (hread : Arguments.read i.args = .ok o)
    (hload : (Manifest.load i.files o.object).result = .ok object) :
    i.requests = (Manifest.load i.files o.object).requests ++
      (o.job.proceed i.world object.host).trace.calls.flatMap object.requests := by
  have hworld := load_world hload
  rw [requests_of_read hread, (Job.run_of_load_ok hworld).2, Object.Loading.requestsOf_load,
    Object.Loading.requestsOf_eq hload (Job.load_not_mem_proceed hworld)]

theorem result_of_not_loaded {chain : Chain}
    (hload : (Manifest.load i.files o.object).result = .error chain) :
    (o.job.run i.world).result = .error (.moduleLoad o.object chain) :=
  (Job.run_of_load_error (not_loaded_world hload)).1

/-- A loaded object is closed by the last request or by none. -/
theorem exists_requests (hread : Arguments.read i.args = .ok o)
    (hload : (Manifest.load i.files o.object).result = .ok object) :
    ∃ middle last before, Job.ModuleKept o.object (o.job.run i.world) middle last ∧
      i.requests = before ++ object.requests last ∧ .close ∉ before := by
  obtain ⟨middle, last, hkept, hcalls⟩ := Job.exists_moduleKept (load_world hload)
  refine ⟨middle, last, (Manifest.load i.files o.object).requests ++
    middle.flatMap object.requests, hkept, ?_, ?_⟩
  · rw [requests_of_loaded hread hload, hcalls, List.flatMap_append, List.flatMap_singleton,
      List.append_assoc]
  · intro hclose
    rcases List.mem_append.mp hclose with hloading | hmiddle
    · rcases Manifest.mem_requests_load hloading with heq | heq <;> exact nomatch heq
    · obtain ⟨c, hc, hrequest⟩ := List.mem_flatMap.mp hmiddle
      have huntouched := hkept.untouched c hc
      rw [Object.mem_requests_close hrequest] at huntouched
      exact nomatch huntouched

theorem pins_iff (hread : Arguments.read i.args = .ok o)
    (hload : (Manifest.load i.files o.object).result = .ok object) :
    (∃ path, [.pin path, .disconnect] <:+: i.requests) ↔
      ∃ link, .disconnect link ∈ (o.job.run i.world).trace.calls := by
  have hcalls := (Job.run_of_load_ok (load_world hload)).2
  rw [hcalls, requests_of_loaded hread hload]
  constructor
  · rintro ⟨path, hinfix⟩
    have hmem : .disconnect ∈ (Manifest.load i.files o.object).requests ++
        (o.job.proceed i.world object.host).trace.calls.flatMap object.requests :=
      hinfix.subset (List.mem_cons_of_mem _ List.mem_cons_self)
    rcases List.mem_append.mp hmem with hloading | hproceed
    · rcases Manifest.mem_requests_load hloading with heq | heq <;> exact nomatch heq
    · obtain ⟨c, hc, hrequest⟩ := List.mem_flatMap.mp hproceed
      obtain ⟨link, rfl⟩ := Object.mem_requests_disconnect hrequest
      exact ⟨link, List.mem_cons_of_mem _ hc⟩
  · rintro ⟨link, hmem⟩
    -- The pin before it is a call of the same job, so the object sees both, one after the other.
    have hproceed := (List.mem_cons.mp hmem).resolve_left Call.noConfusion
    obtain ⟨path, before, after, heq⟩ := Job.pin_before_disconnect_proceed hproceed
    refine ⟨path, (Manifest.load i.files o.object).requests ++ before.flatMap object.requests,
      after.flatMap object.requests, ?_⟩
    rw [← heq]
    simp [Object.requests]

theorem zero_iff_of_read (hread : Arguments.read i.args = .ok o) :
    i.run.exitCode = 0 ↔ ∃ path, [.pin path, .disconnect] <:+: i.requests := by
  rw [exitCode_eq_zero_iff hread]
  cases hload : (Manifest.load i.files o.object).result with
  | error chain =>
    rw [result_of_not_loaded hload, requests_of_not_loaded hread hload]
    constructor
    · rintro ⟨_, heq⟩
      exact nomatch heq
    · rintro ⟨path, hinfix⟩
      have hmem := hinfix.subset List.mem_cons_self
      rcases Manifest.mem_requests_load hmem with heq | heq <;> exact nomatch heq
  | ok object =>
    obtain ⟨middle, last, _, hkept, _, _⟩ := exists_requests hread hload
    rw [← hkept.released_iff_ok, hkept.released_iff_disconnected, pins_iff hread hload]

theorem handed_over_of_read (hread : Arguments.read i.args = .ok o) :
    i.run.exitCode = 0 ↔ i.run.calls.getLast? = some .release ∧ .close ∉ i.requests := by
  have hran : i.run.calls = (o.job.run i.world).trace.calls := by
    rw [run_of_read hread]
    rfl
  rw [exitCode_eq_zero_iff hread, hran]
  cases hload : (Manifest.load i.files o.object).result with
  | error chain =>
    have hcalls := (Job.run_of_load_error (not_loaded_world hload)).2
    rw [result_of_not_loaded hload, hcalls]
    simp
  | ok object =>
    obtain ⟨middle, last, before, hkept, hrequests, hbefore⟩ := exists_requests hread hload
    rw [← hkept.released_iff_ok, hkept.calls, hrequests, List.getLast?_concat]
    constructor
    · rintro rfl
      exact ⟨rfl, by simpa [Object.requests] using hbefore⟩
    · rintro ⟨hlast, _⟩
      exact Option.some.inj hlast

theorem closed_of_read (hread : Arguments.read i.args = .ok o)
    (hload : (Manifest.load i.files o.object).result = .ok object) :
    i.run.exitCode = 1 ↔ ∃ before, i.requests = before ++ [.close] ∧ .close ∉ before := by
  obtain ⟨middle, last, before, hkept, hrequests, hbefore⟩ := exists_requests hread hload
  constructor
  · intro hcode
    obtain ⟨e, he⟩ := (exitCode_eq_one_iff hread).mp hcode
    rcases hkept.given_up with hlast | hlast
    · obtain ⟨summary, hok⟩ := hkept.released_iff_ok.mp hlast
      rw [hok] at he
      exact nomatch he
    · exact ⟨before, by rw [hrequests, hlast]; rfl, hbefore⟩
  · rintro ⟨front, hfront, _⟩
    rw [exitCode_of_read hread]
    cases hresult : (o.job.run i.world).result with
    | error e => rfl
    | ok summary =>
      have hclose : .close ∈ i.requests := by
        rw [hfront]
        exact List.mem_append_right _ List.mem_cons_self
      rw [hrequests, hkept.released_iff_ok.mpr ⟨summary, hresult⟩] at hclose
      exact absurd hclose (by simpa [Object.requests] using hbefore)

theorem told_of_read (hread : Arguments.read i.args = .ok o) (hcode : i.run.exitCode = 1) :
    ∃ e, (o.job.run i.world).result = .error e ∧
      i.run.records.getLast? = some (.error e.message) ∧
      ∀ time, ∃ before, i.run.stderr time =
        before ++ (i.console o).levelPart .error ++ (e.message ++ "\n") := by
  obtain ⟨e, he⟩ := (exitCode_eq_one_iff hread).mp hcode
  have hrecords : i.run.records = (o.job.run i.world).trace.records ++ [.error e.message] := by
    rw [run_of_read hread]
    unfold Ending.records
    dsimp only
    rw [he]
  refine ⟨e, he, ?_, ?_⟩
  · rw [hrecords, List.getLast?_concat]
  · intro time
    have hstderr : i.run.stderr time = (i.console o).render time i.run.records := by
      rw [run_of_read hread]
      rfl
    have hlast : (i.console o).render time [.error e.message] =
        (i.console o).piece time (.error e.message) := by
      simp [Log.Console.render]
    refine ⟨(i.console o).render time (o.job.run i.world).trace.records ++
      (if (i.console o).showsTime then time ++ " " else ""), ?_⟩
    rw [hstderr, hrecords, Log.Console.render_append, hlast, Log.Console.piece_error,
      String.append_assoc, String.append_assoc, String.append_assoc]

theorem parseLevel_of_store {g g' : Arguments.Given} {value : Arguments.Raw}
    (hstore : Arguments.store g .logLevel value = .ok g') :
    ∃ text level, Utf8.decode? value = some text ∧ Log.parseLevel text = .ok level ∧
      g'.logLevel = some level := by
  obtain ⟨l, rfl, -, rfl⟩ := Arguments.store_level_eq_ok_iff.mp hstore
  exact ⟨l.name, l, Utf8.decode?_encode _, Log.parseLevel_name l, rfl⟩

/-- Arguments ask for a text, are mistaken, or ask for a job. -/
theorem read_cases (i : Invocation) :
    (i.AsksForText ∧ ∃ text, i.run = .told text) ∨
      (∃ e, Arguments.read i.args = .error (.mistake e) ∧ i.run = .refused e) ∨
      ∃ o, Arguments.read i.args = .ok o := by
  unfold AsksForText run
  cases Arguments.read i.args with
  | ok o => exact Or.inr (Or.inr ⟨o, rfl⟩)
  | error stop =>
    cases stop with
    | help long => exact Or.inl ⟨Or.inl ⟨long, rfl⟩, _, rfl⟩
    | version => exact Or.inl ⟨Or.inr rfl, _, rfl⟩
    | mistake e => exact Or.inr (Or.inl ⟨e, rfl, rfl⟩)

theorem not_asksForText_of_ok (hread : Arguments.read i.args = .ok o) : ¬ i.AsksForText := by
  rintro (⟨long, hlong⟩ | hversion)
  · exact nomatch hread.symm.trans hlong
  · exact nomatch hread.symm.trans hversion

theorem not_asksForText_of_mistake {e : UsageError}
    (hread : Arguments.read i.args = .error (.mistake e)) : ¬ i.AsksForText := by
  rintro (⟨long, hlong⟩ | hversion)
  · exact nomatch hread.symm.trans hlong
  · exact nomatch hread.symm.trans hversion

theorem fails_iff_of_read (hread : Arguments.read i.args = .ok o) :
    i.run.exitCode = 1 ↔ i.Fails := by
  rw [exitCode_eq_one_iff hread, Job.failed_iff]
  constructor
  · intro hfailed
    exact .failed hread hfailed
  · intro hfails
    cases hfails with
    | misused hmistake => exact nomatch hread.symm.trans hmistake
    | failed hread' hfailed =>
      obtain rfl := Except.ok.inj (hread.symm.trans hread')
      exact hfailed

end

/-- The program ends with 0 or 1, with 1 for every failure, and leaves or closes its object
accordingly. -/
theorem run_exitAgrees (i : Invocation) : i.ExitAgrees := by
  refine ⟨?_, ?_, ?_, fun _ => handed_over_of_read, fun _ _ => closed_of_read,
    fun _ => told_of_read, ?_, fun _ _ _ => parseLevel_of_store⟩
  · rcases i.read_cases with ⟨_, text, hrun⟩ | ⟨e, _, hrun⟩ | ⟨o, hread⟩
    · rw [hrun]
      exact Or.inl rfl
    · rw [hrun]
      exact Or.inr rfl
    · rw [exitCode_of_read hread]
      cases (o.job.run i.world).result <;> simp
  · rcases i.read_cases with ⟨hasks, text, hrun⟩ | ⟨e, hread, hrun⟩ | ⟨o, hread⟩
    · simp [hrun, Ending.exitCode, hasks]
    · simp [hrun, Ending.exitCode, not_asksForText_of_mistake hread, hread]
    · rw [zero_iff_of_read hread]
      simp [not_asksForText_of_ok hread, hread]
  · rcases i.read_cases with ⟨hasks, text, hrun⟩ | ⟨e, hread, hrun⟩ | ⟨o, hread⟩
    · rw [hrun]
      constructor
      · intro hcode
        exact nomatch hcode
      · intro hfails
        cases hfails with
        | misused hmistake => exact absurd hasks (not_asksForText_of_mistake hmistake)
        | failed hread _ => exact absurd hasks (not_asksForText_of_ok hread)
    · rw [hrun]
      exact ⟨fun _ => .misused hread, fun _ => rfl⟩
    · exact fails_iff_of_read hread
  · rcases i.read_cases with ⟨_, text, hrun⟩ | ⟨e, _, hrun⟩ | ⟨o, hread⟩
    · simp [hrun]
    · simp [hrun]
    · simp [run_of_read hread]

end Invocation

end ProbeLoader
