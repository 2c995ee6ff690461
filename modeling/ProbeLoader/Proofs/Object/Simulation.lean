import ProbeLoader.Host.Script
import ProbeLoader.Object.Library
import ProbeLoader.Proofs.Attachment.Isolation
import ProbeLoader.Proofs.Hook.Target
import ProbeLoader.Proofs.Object.Reference
import Mathlib.Data.List.Forall2

/-!
# Objects as scripted modules

If all names and section titles of an object are text, a run of directives over it goes event by
event like one over the scripted module with the same programs and the same failures. The object
is asked for nothing else: a directive that gets as far as attaching makes one call to the library
for that, about the first program that bears the name of the one it was resolved to, and after it
those that pin the link and let it go.
-/

namespace ProbeLoader

/-- Hosts that a run cannot tell apart. They may differ about programs that no name leads to. -/
structure Host.Alike (h h' : Host) : Prop where
  find : h.find = h'.find
  findByTitle : h.findByTitle = h'.findByTitle
  names : h.names = h'.names
  attachFailure : ∀ name p, h.program? name = some p →
    ∀ hook, h.attachFailure p hook = h'.attachFailure p hook
  pinFailure : h.pinFailure = h'.pinFailure

section

variable {h h' : Host}

theorem Host.Alike.program?_eq (halike : h.Alike h') (name : String) :
    h.program? name = h'.program? name := by
  unfold Host.program?
  rw [halike.find, halike.findByTitle]

theorem Host.Alike.resolve_eq (halike : h.Alike h') (s : Session) (name : String) :
    Link.resolve h s name = Link.resolve h' s name := by
  unfold Link.resolve
  rw [halike.find, halike.findByTitle, halike.names]

theorem Link.Processed.alike (halike : h.Alike h') {s : Session} {d : Directive}
    {o : Outcome Unit} (ho : Processed h s d o) : Processed h' s d o := by
  have hprogram := halike.program?_eq d.programName
  cases ho with
  | unknown hp =>
    rw [halike.resolve_eq, halike.names]
    exact .unknown (hprogram.symm.trans hp)
  | invalid hp ht =>
    rw [halike.resolve_eq]
    exact .invalid (hprogram.symm.trans hp) ht
  | @refused p hook chain hp ht ha =>
    rw [halike.resolve_eq]
    rw [halike.attachFailure _ _ hp] at ha
    exact .refused (hprogram.symm.trans hp) ht ha
  | unpinned hp ht ha hf =>
    rw [halike.resolve_eq]
    rw [halike.attachFailure _ _ hp] at ha
    rw [halike.pinFailure] at hf
    exact .unpinned (hprogram.symm.trans hp) ht ha hf
  | pinned hp ht ha hf =>
    rw [halike.resolve_eq]
    rw [halike.attachFailure _ _ hp] at ha
    rw [halike.pinFailure] at hf
    exact .pinned (hprogram.symm.trans hp) ht ha hf

theorem Host.Alike.process_eq (halike : h.Alike h') (s : Session) (d : Directive) :
    Link.process h s d = Link.process h' s d :=
  ((Link.process_processed h s d).alike halike).unique (Link.process_processed h' s d)

theorem Host.Alike.processAll_eq (halike : h.Alike h') (total index : Nat) (s : Session)
    (ds : List Directive) :
    Attachment.processAll h total index s ds = Attachment.processAll h' total index s ds := by
  induction ds generalizing index s with
  | nil => rfl
  | cons d ds ih =>
    unfold Attachment.processAll
    dsimp only
    rw [halike.process_eq, ih]

theorem Host.Alike.attachAll_eq (halike : h.Alike h') (ds : List Directive) :
    attachAll h ds = attachAll h' ds := by
  unfold attachAll
  rw [halike.processAll_eq]

end

/-- The library call that attaches a program to the hook point that a target names. -/
inductive ObjectProgram.AttachedBy (p : ObjectProgram) :
    ProbeKind → String → Hook → LibraryCall → Prop where
  | tracepoint {group name : String} : ':' ∉ group.toList → group ≠ "" → name ≠ "" →
      AttachedBy p .tracepoint (group ++ ":" ++ name) (.tracepoint group name)
        (.attachTracepoint p (.custom group) name)
  | kprobe (symbol : String) :
      AttachedBy p .kprobe symbol (.kprobe symbol) (.attachKprobe p false symbol)
  | kretprobe (symbol : String) :
      AttachedBy p .kretprobe symbol (.kretprobe symbol) (.attachKprobe p true symbol)

theorem ObjectProgram.attachedBy_attachTo (p : ObjectProgram) {kind : ProbeKind} {target : String}
    {hook : Hook} (hhook : Hook.ofTarget kind target = .ok hook) :
    p.AttachedBy kind target hook (p.attachTo hook) := by
  cases Hook.ofTarget_eq_ok_iff.mp hhook with
  | tracepoint hgroup hgroupNe hnameNe => exact .tracepoint hgroup hgroupNe hnameNe
  | kprobe => exact .kprobe target
  | kretprobe => exact .kretprobe target

/-- The program of an object that has a name and a section title. -/
def ObjectProgram.ofTexts (program : String × String) : ObjectProgram :=
  ⟨Utf8.encode program.1, Utf8.encode program.2⟩

namespace Script

/-- The program that is attached when a name is asked for: the first one that bears the name of the
program which the name, or else the section title, leads to. -/
def acted? (s : Script) (name : String) : Option (String × String) :=
  ((s.find name).or (s.findByTitle name)).bind fun p =>
    s.programs.find? fun program => program.1 == p.name

/-- What a directive comes to over a scripted module, with the library calls that are made for it
if the module is an object. -/
inductive Asked (s : Script) (d : Directive) : Option DirectiveError → List LibraryCall → Prop where
  | unknown : s.acted? d.programName = none →
      Asked s d (some (.programNotFound d.programName (s.programs.map (·.1)))) []
  | invalid {program : String × String} {e : Hook.TargetError} :
      s.acted? d.programName = some program → Hook.ofTarget d.kind d.target = .error e →
      Asked s d (some (.invalidTarget d.kind d.target e.message)) []
  | refused {program : String × String} {hook : Hook} {call : LibraryCall} {chain : Chain} :
      s.acted? d.programName = some program →
      (ObjectProgram.ofTexts program).AttachedBy d.kind d.target hook call →
      s.attachFailure hook = some chain → Asked s d (some (.attachFailed hook chain)) [call]
  | unpinned {program : String × String} {hook : Hook} {call : LibraryCall} {chain : Chain} :
      s.acted? d.programName = some program →
      (ObjectProgram.ofTexts program).AttachedBy d.kind d.target hook call →
      s.attachFailure hook = none → s.pinFailure d.pinPath.shown = some chain →
      Asked s d (some (.pinFailed d.pinPath chain)) [call, .pin d.pinPath, .detach]
  | pinned {program : String × String} {hook : Hook} {call : LibraryCall} :
      s.acted? d.programName = some program →
      (ObjectProgram.ofTexts program).AttachedBy d.kind d.target hook call →
      s.attachFailure hook = none → s.pinFailure d.pinPath.shown = none →
      Asked s d none [call, .pin d.pinPath, .disconnect]

/-- The object that has the programs of a scripted module and fails where it does. -/
def object (s : Script) : Object :=
  ⟨s.programs.map ObjectProgram.ofTexts, s.attachFailure, s.pinFailure⟩

end Script

namespace Object

/-- Whether all names and section titles are text. -/
def IsText (o : Object) : Prop :=
  ∀ p ∈ o.programs, p.IsNamed ∧ ∃ t, p.title = Utf8.encode t

/-- The scripted module with the programs and the failures of an object. -/
def script (o : Object) : Script where
  programs := o.programs.map fun p => (Utf8.lossy p.name, Utf8.lossy p.title)
  loadFailure := none
  attachFailure := o.attachFailure
  pinFailure := o.pinFailure
  exclusivePins := false

/-- How a run of directives over an object compares to one over a scripted module. -/
structure Simulates (o : Object) (s : Script) (ds : List Directive) : Prop where
  /-- The outcomes are the same, and all events are, in the same order. -/
  run : attachAll o.host ds = attachAll s.host ds
  /-- The library is called for one directive after the other, and the object is dropped at the end
  unless it was handed over. -/
  library : ∃ parts, List.Forall₂ (fun outcome part => s.Asked outcome.1 outcome.2 part)
      (attachAll s.host ds).report.outcomes parts ∧
    o.libraryCalls (attachAll o.host ds).trace.calls =
      parts.flatten ++ if (attachAll s.host ds).report.summary.isSuccess then [] else [.close]

@[simp] theorem libraryCalls_append (o : Object) (calls more : List Call) :
    o.libraryCalls (calls ++ more) = o.libraryCalls calls ++ o.libraryCalls more :=
  List.flatMap_append

@[simp] theorem libraryCalls_lookups (o : Object) (h : Host) (name : String) :
    o.libraryCalls (h.lookups name) = [] := by
  apply List.flatMap_eq_nil_iff.mpr
  intro c hc
  rcases Link.mem_lookups hc with rfl | rfl | rfl <;> rfl

theorem libraryCalls_attach {o : Object} {p : ProgramRef} {program : ObjectProgram}
    (hnamed : o.named? p.name = some program) (hook : Hook) (calls : List Call) :
    o.libraryCalls (.attach p hook :: calls) = program.attachTo hook :: o.libraryCalls calls := by
  have hrequests : o.requests (.attach p hook) = [.attach program hook] := by
    unfold requests
    dsimp only
    rw [hnamed]
    rfl
  unfold libraryCalls
  rw [List.flatMap_cons, hrequests]
  rfl

@[simp] theorem libraryCalls_nil (o : Object) : o.libraryCalls [] = [] := rfl

@[simp] theorem libraryCalls_pin (o : Object) (link : LinkId) (path : Path) (calls : List Call) :
    o.libraryCalls (.pin link path :: calls) = .pin path :: o.libraryCalls calls := rfl

@[simp] theorem libraryCalls_disconnect (o : Object) (link : LinkId) (calls : List Call) :
    o.libraryCalls (.disconnect link :: calls) = .disconnect :: o.libraryCalls calls := rfl

@[simp] theorem libraryCalls_detach (o : Object) (link : LinkId) (calls : List Call) :
    o.libraryCalls (.detach link :: calls) = .detach :: o.libraryCalls calls := rfl

end Object

namespace Script

variable {s : Script}

theorem named?_object (s : Script) (name : String) :
    s.object.named? name =
      (s.programs.find? fun program => program.1 == name).map ObjectProgram.ofTexts := by
  unfold Object.named? object
  rw [List.find?_map]
  congr 2
  funext program
  exact Utf8.encode_beq_encode program.1 name

theorem titled?_object (s : Script) (title : String) :
    s.object.titled? title =
      (s.programs.find? fun program => program.2 == title).map ObjectProgram.ofTexts := by
  unfold Object.titled? object
  rw [List.find?_map]
  congr 2
  funext program
  exact Utf8.encode_beq_encode program.2 title

theorem mem_of_program? {name : String} {p : ProgramRef} (hp : s.host.program? name = some p) :
    ∃ program ∈ s.programs, program.1 = p.name := by
  have hmem {q : String × String → Bool}
      (hq : (s.programs.find? q).map (fun program => ⟨program.1⟩) = some p) :
      ∃ program ∈ s.programs, program.1 = p.name := by
    obtain ⟨program, hfound, rfl⟩ := Option.map_eq_some_iff.mp hq
    exact ⟨program, List.mem_of_find?_eq_some hfound, rfl⟩
  rcases Option.or_eq_some_iff.mp hp with hnamed | ⟨_, htitled⟩
  · exact hmem hnamed
  · exact hmem htitled

/-- A program that a name leads to can be attached, for some program bears its name. -/
theorem acted?_of_program? {name : String} {p : ProgramRef}
    (hp : s.host.program? name = some p) :
    ∃ program, s.acted? name = some program ∧
      s.object.named? p.name = some (.ofTexts program) := by
  have hacted : s.acted? name = s.programs.find? fun program => program.1 == p.name := by
    unfold acted?
    rw [show (s.find name).or (s.findByTitle name) = some p from hp]
    rfl
  cases hfound : s.programs.find? fun program => program.1 == p.name with
  | none =>
    obtain ⟨program, hmem, hname⟩ := mem_of_program? hp
    have hnot := List.find?_eq_none.mp hfound program hmem
    exact absurd (beq_iff_eq.mpr hname) hnot
  | some program =>
    refine ⟨program, hacted.trans hfound, ?_⟩
    rw [named?_object, hfound, Option.map_some]

theorem acted?_of_program?_eq_none {name : String} (hp : s.host.program? name = none) :
    s.acted? name = none := by
  unfold acted?
  rw [show (s.find name).or (s.findByTitle name) = none from hp]
  rfl

theorem ref_ofTexts (program : String × String) :
    (ObjectProgram.ofTexts program).ref = ⟨program.1⟩ := by
  unfold ObjectProgram.ref ObjectProgram.ofTexts
  rw [Utf8.lossy_encode]

theorem host_object_alike (hpins : s.exclusivePins = false) : s.object.host.Alike s.host := by
  have hfind : s.object.host.find = s.host.find := by
    funext name
    change (s.object.named? name).map ObjectProgram.ref = s.find name
    rw [named?_object, Option.map_map]
    unfold find
    congr 1
    funext program
    exact ref_ofTexts program
  have htitle : s.object.host.findByTitle = s.host.findByTitle := by
    funext title
    change (s.object.titled? title).map ObjectProgram.ref = s.findByTitle title
    rw [titled?_object, Option.map_map]
    unfold findByTitle
    congr 1
    funext program
    exact ref_ofTexts program
  refine ⟨hfind, htitle, ?_, ?_, ?_⟩
  · change (s.programs.map ObjectProgram.ofTexts).map (fun p => p.ref.name) = s.programs.map (·.1)
    rw [List.map_map]
    congr 1
    funext program
    exact congrArg ProgramRef.name (ref_ofTexts program)
  · intro name p hp hook
    have hp' : s.host.program? name = some p := by
      unfold Host.program? at hp ⊢
      rwa [← hfind, ← htitle]
    obtain ⟨program, _, hnamed⟩ := acted?_of_program? hp'
    unfold Object.host
    dsimp only
    rw [hnamed]
    rfl
  · funext pinned path
    change s.pinFailure path.shown =
      (s.pinFailure path.shown).or (if s.isTaken pinned path then some alreadyPinned else none)
    simp [isTaken, hpins]

theorem pinFailure_host (hpins : s.exclusivePins = false) (pinned : List Path) (path : Path) :
    s.host.pinFailure pinned path = s.pinFailure path.shown := by
  have h := (host_object_alike hpins).pinFailure
  exact (congrFun (congrFun h pinned) path).symm

theorem asked_of_processed (hpins : s.exclusivePins = false) {session : Session} {d : Directive}
    {o : Outcome Unit} (ho : Link.Processed s.host session d o) :
    s.Asked d (Attachment.failure? o.result) (s.object.libraryCalls o.trace.calls) := by
  -- Looking up asks nothing of the library, so what is left is the attach and what follows it.
  cases ho with
  | unknown hp =>
    rw [Link.calls_resolve, Object.libraryCalls_lookups]
    exact .unknown (acted?_of_program?_eq_none hp)
  | invalid hp ht =>
    obtain ⟨program, hacted, _⟩ := acted?_of_program? hp
    rw [Link.calls_resolve, Object.libraryCalls_lookups]
    exact .invalid hacted ht
  | refused hp ht ha =>
    obtain ⟨program, hacted, hnamed⟩ := acted?_of_program? hp
    have hattached := (ObjectProgram.ofTexts program).attachedBy_attachTo ht
    have hasked := Asked.refused hacted hattached ha
    simpa [Attachment.failure?, Object.libraryCalls_attach hnamed] using hasked
  | unpinned hp ht ha hf =>
    obtain ⟨program, hacted, hnamed⟩ := acted?_of_program? hp
    have hattached := (ObjectProgram.ofTexts program).attachedBy_attachTo ht
    rw [pinFailure_host hpins] at hf
    have hasked := Asked.unpinned hacted hattached ha hf
    simpa [Attachment.failure?, Object.libraryCalls_attach hnamed] using hasked
  | pinned hp ht ha hf =>
    obtain ⟨program, hacted, hnamed⟩ := acted?_of_program? hp
    have hattached := (ObjectProgram.ofTexts program).attachedBy_attachTo ht
    rw [pinFailure_host hpins] at hf
    have hasked := Asked.pinned hacted hattached ha hf
    simpa [Attachment.failure?, Object.libraryCalls_attach hnamed] using hasked

theorem exists_parts (hpins : s.exclusivePins = false) (total index : Nat) (session : Session)
    (ds : List Directive) :
    ∃ parts, List.Forall₂ (fun outcome part => s.Asked outcome.1 outcome.2 part)
        (Attachment.processAll s.host total index session ds).outcomes parts ∧
      s.object.libraryCalls (Attachment.processAll s.host total index session ds).trace.calls =
        parts.flatten := by
  induction ds generalizing index session with
  | nil => exact ⟨[], .nil, rfl⟩
  | cons d ds ih =>
    have hprocessed := Link.process_processed s.host session d
    obtain ⟨parts, hparts, hcalls⟩ := ih (index + 1) (Link.process s.host session d).session
    refine ⟨s.object.libraryCalls (Link.process s.host session d).trace.calls :: parts, ?_, ?_⟩
    · exact .cons (asked_of_processed hpins hprocessed) hparts
    · rw [Attachment.calls_processAll_cons, Object.libraryCalls_append, hcalls, List.flatten_cons]

theorem object_simulates (hpins : s.exclusivePins = false) (ds : List Directive) :
    s.object.Simulates s ds := by
  have hrun := (host_object_alike hpins).attachAll_eq ds
  obtain ⟨parts, hparts, hcalls⟩ := exists_parts hpins ds.length 1 .fresh ds
  refine ⟨hrun, parts, hparts, ?_⟩
  rw [hrun, Attachment.calls_attachAll, Object.libraryCalls_append, hcalls]
  unfold Attachment.lastCall
  split <;> rfl

end Script

namespace Object

theorem object_script {o : Object} (htext : o.IsText) : o.script.object = o := by
  have hprograms : o.script.object.programs = o.programs := by
    change (o.programs.map _).map ObjectProgram.ofTexts = o.programs
    rw [List.map_map]
    apply (List.map_congr_left ?_).trans (List.map_id _)
    intro p hp
    obtain ⟨⟨name, hname⟩, title, htitle⟩ := htext p hp
    obtain ⟨_, _⟩ := p
    subst hname htitle
    simp [ObjectProgram.ofTexts]
  calc o.script.object
    _ = { o with programs := o.script.object.programs } := rfl
    _ = o := by rw [hprograms]

/-- A run over an object whose names and titles are text is the run over the scripted module with
its programs. -/
theorem attachAll_simulates (o : Object) (htext : o.IsText) (ds : List Directive) :
    o.Simulates o.script ds := by
  have hsim := Script.object_simulates (s := o.script) rfl ds
  rwa [object_script htext] at hsim

/-- Asked for by its title, the second of two programs with one name leaves the first one attached;
its link cannot be pinned, but the other directive is a success. -/
theorem attachAll_simulates_repeated :
    let first := ObjectProgram.ofTexts ("probe", "kprobe/vfs_read")
    let second := ObjectProgram.ofTexts ("probe", "kprobe/vfs_write")
    let third := ObjectProgram.ofTexts ("enter", "tracepoint/syscalls/sys_enter_write")
    let o : Object := ⟨[first, second, third], fun _ => none,
      fun path => if path = "/p/a" then some (.ofMessage "File exists (os error 17)") else none⟩
    let ds : List Directive :=
      [⟨1, .ofString "/p/a", "kprobe/vfs_write", .kretprobe, "vfs_write"⟩,
        ⟨2, .ofString "/p/b", "enter", .tracepoint, "syscalls:sys_enter_write"⟩]
    o.IsText ∧ o.Simulates o.script ds ∧
      o.libraryCalls (attachAll o.host ds).trace.calls =
        [.attachKprobe first true "vfs_write", .pin (.ofString "/p/a"), .detach,
          .attachTracepoint third (.custom "syscalls") "sys_enter_write", .pin (.ofString "/p/b"),
          .disconnect] := by
  intro first second third o ds
  have htext : o.IsText := by
    intro p hp
    obtain ⟨program, rfl⟩ : ∃ program, p = ObjectProgram.ofTexts program := by
      simp only [o, List.mem_cons, List.not_mem_nil, or_false] at hp
      rcases hp with rfl | rfl | rfl
      · exact ⟨_, rfl⟩
      · exact ⟨_, rfl⟩
      · exact ⟨_, rfl⟩
    exact ⟨⟨program.1, rfl⟩, program.2, rfl⟩
  exact ⟨htext, attachAll_simulates o htext ds, by decide +kernel⟩

end Object

end ProbeLoader
