import ProbeLoader.Object
import ProbeLoader.Proofs.Link.Process
import ProbeLoader.Proofs.Text.Utf8
import Mathlib.Data.List.Nodup

/-!
# What a reference to a program leads to

A reference holds the name of a program as text, and attaching looks the program up again by that
text. If the names of an object are different byte strings, a program whose name is text is found
again by it. The reference to any other program holds another name than its own, so attaching goes
to whichever program has that name, or fails if there is none, but never reaches the program that
was selected.
-/

namespace ProbeLoader

/-- Whether the name of a program is text. -/
def ObjectProgram.IsNamed (p : ObjectProgram) : Prop := ∃ t, p.name = Utf8.encode t

theorem ObjectProgram.encode_ref_eq_iff (p : ObjectProgram) :
    Utf8.encode p.ref.name = p.name ↔ p.IsNamed := by
  constructor
  · intro heq
    exact ⟨p.ref.name, heq.symm⟩
  · intro hnamed
    obtain ⟨t, ht⟩ := hnamed
    unfold ObjectProgram.ref
    rw [ht, Utf8.lossy_encode]

namespace Object

/-- The program that is selected by its name, or else by the title of its section. -/
def selected? (o : Object) (name : String) : Option ObjectProgram :=
  (o.named? name).or (o.titled? name)

/-- What attaching a program to the hook point of a target asks of an object. -/
def attachRequests (o : Object) (s : Session) (p : ProgramRef) (kind : ProbeKind)
    (target : String) : List Request :=
  (Link.attach o.host s p kind target).trace.calls.flatMap o.requests

variable {o : Object} {name : String} {p q : ObjectProgram}

theorem named?_eq_some {name : String} (hp : o.named? name = some p) :
    p ∈ o.programs ∧ p.name = Utf8.encode name := by
  unfold named? at hp
  exact ⟨List.mem_of_find?_eq_some hp, by simpa using List.find?_some hp⟩

theorem isNamed_of_named? (hp : o.named? name = some p) : p.IsNamed :=
  ⟨name, (named?_eq_some hp).2⟩

theorem mem_of_selected? (hp : o.selected? name = some p) : p ∈ o.programs := by
  rcases Option.or_eq_some_iff.mp hp with hnamed | ⟨_, htitled⟩
  · exact (named?_eq_some hnamed).1
  · exact List.mem_of_find?_eq_some htitled

theorem resolve_of_selected? (hp : o.selected? name = some p) (s : Session) :
    (Link.resolve o.host s name).result = .ok p.ref := by
  have hprogram : o.host.program? name = some p.ref := by
    calc o.host.program? name
      _ = (o.selected? name).map ObjectProgram.ref := (Option.map_or).symm
      _ = some p.ref := by rw [hp, Option.map_some]
  rcases Link.resolve_cases o.host s name with ⟨r, hr, hresult⟩ | ⟨hnone, _⟩
  · rw [hprogram] at hr
    rw [hresult, Option.some.inj hr]
  · rw [hprogram] at hnone
    exact nomatch hnone

theorem named?_eq_none (hnone : ∀ q ∈ o.programs, q.name ≠ Utf8.encode name) :
    o.named? name = none := by
  apply List.find?_eq_none.mpr
  intro q hq hname
  exact hnone q hq (beq_iff_eq.mp hname)

/-- With different names a program is found by the bytes of its name. -/
theorem named?_eq_of_mem (hnames : (o.programs.map (·.name)).Nodup) (hq : q ∈ o.programs)
    (hname : q.name = Utf8.encode name) : o.named? name = some q := by
  cases hfound : o.named? name with
  | none =>
    have hnot := List.find?_eq_none.mp hfound q hq
    exact absurd (beq_iff_eq.mpr hname) hnot
  | some r =>
    obtain ⟨hr, hrname⟩ := named?_eq_some hfound
    rw [List.inj_on_of_nodup_map hnames hr hq (hrname.trans hname.symm)]

section

variable {kind : ProbeKind} {target : String} {hook : Hook}

theorem attach_of_named? (hq : o.named? p.ref.name = some q) (s : Session)
    (htarget : Hook.ofTarget kind target = .ok hook) :
    o.attachRequests s p.ref kind target = [.attach q hook] ∧
      (Link.attach o.host s p.ref kind target).result =
        match o.attachFailure hook with
        | none => .ok (s.links + 1)
        | some chain => .error (.attachFailed hook chain) := by
  have hfailure : o.host.attachFailure p.ref hook = o.attachFailure hook := by
    unfold host
    dsimp only
    rw [hq]
  have hrequests : o.requests (.attach p.ref hook) = [.attach q hook] := by
    unfold requests
    dsimp only
    rw [hq]
    rfl
  unfold attachRequests Link.attach
  rw [htarget]
  dsimp only
  unfold Link.attachAt
  rw [hfailure]
  cases o.attachFailure hook with
  | none => exact ⟨by simp [hrequests], rfl⟩
  | some chain => exact ⟨by simp [hrequests], rfl⟩

theorem attach_of_not_named? (hp : o.named? p.ref.name = none) (s : Session)
    (htarget : Hook.ofTarget kind target = .ok hook) :
    o.attachRequests s p.ref kind target = [] ∧
      (Link.attach o.host s p.ref kind target).result =
        .error (.attachFailed hook (unknownProgram p.ref)) := by
  have hfailure : o.host.attachFailure p.ref hook = some (unknownProgram p.ref) := by
    unfold host
    dsimp only
    rw [hp]
  have hrequests : o.requests (.attach p.ref hook) = [] := by
    unfold requests
    dsimp only
    rw [hp]
    rfl
  unfold attachRequests Link.attach
  rw [htarget]
  dsimp only
  unfold Link.attachAt
  rw [hfailure]
  exact ⟨by simp [hrequests], rfl⟩

end

/-- What comes of attaching a program to the hook point of a target, after a name selected it. -/
structure Reached (o : Object) (s : Session) (name : String) (p : ObjectProgram)
    (kind : ProbeKind) (target : String) (hook : Hook) : Prop where
  resolved : (Link.resolve o.host s name).result = .ok p.ref
  /-- The program itself is attached if and only if its name is text, as it is if the program was
  selected by its name. -/
  attached_iff : o.attachRequests s p.ref kind target = [.attach p hook] ↔ p.IsNamed
  by_name : o.named? name = some p → p.IsNamed
  /-- Then it is up to the object whether attaching succeeds. -/
  named : p.IsNamed → (Link.attach o.host s p.ref kind target).result =
    match o.attachFailure hook with
    | none => .ok (s.links + 1)
    | some chain => .error (.attachFailed hook chain)
  /-- Otherwise another program is attached that has the name in the reference, -/
  other : ¬ p.IsNamed → ∀ q ∈ o.programs, q.name = Utf8.encode (Utf8.lossy p.name) →
    q ≠ p ∧ o.attachRequests s p.ref kind target = [.attach q hook]
  /-- and if no program has that name, nothing is asked of the object. -/
  lost : ¬ p.IsNamed → (∀ q ∈ o.programs, q.name ≠ Utf8.encode (Utf8.lossy p.name)) →
    o.attachRequests s p.ref kind target = [] ∧
      (Link.attach o.host s p.ref kind target).result = .error
        (.attachFailed hook (.ofMessage s!"Couldn't get program {Utf8.lossy p.name}"))

/-- The program that was selected is attached exactly if its name is text. A program that its title
led to and whose name is no text is missed. -/
theorem attach_selected (hnames : (o.programs.map (·.name)).Nodup)
    (hp : o.selected? name = some p) (s : Session) {kind : ProbeKind} {target : String}
    {hook : Hook} (htarget : Hook.ofTarget kind target = .ok hook) :
    Reached o s name p kind target hook := by
  have hmem := mem_of_selected? hp
  have hnamed (hname : p.IsNamed) : o.named? p.ref.name = some p :=
    named?_eq_of_mem hnames hmem (p.encode_ref_eq_iff.mpr hname).symm
  have hother (q : ObjectProgram) (hq : q ∈ o.programs)
      (hname : q.name = Utf8.encode p.ref.name) : o.named? p.ref.name = some q :=
    named?_eq_of_mem hnames hq hname
  refine ⟨resolve_of_selected? hp s, ?_, isNamed_of_named?, ?_, ?_, ?_⟩
  · constructor
    · intro hattached
      rw [← p.encode_ref_eq_iff]
      cases hfound : o.named? p.ref.name with
      | none =>
        rw [(attach_of_not_named? hfound s htarget).1] at hattached
        exact nomatch hattached
      | some q =>
        rw [(attach_of_named? hfound s htarget).1] at hattached
        obtain ⟨⟨rfl, _⟩, _⟩ : (q = p ∧ hook = hook) ∧ True := by simpa using hattached
        exact (named?_eq_some hfound).2.symm
    · intro hname
      exact (attach_of_named? (hnamed hname) s htarget).1
  · intro hname
    exact (attach_of_named? (hnamed hname) s htarget).2
  · intro hnot q hq hname
    refine ⟨?_, (attach_of_named? (hother q hq hname) s htarget).1⟩
    intro heq
    rw [heq] at hname
    exact hnot ⟨_, hname⟩
  · intro hnot hnone
    exact attach_of_not_named? (named?_eq_none hnone) s htarget

/-- The program that a title led to has a name that is no text, and a program whose name is what
the reference makes of it is attached instead. -/
theorem attach_selected_other :
    let p : ObjectProgram := ⟨[0xFE], Utf8.encode "kprobe/vfs_read"⟩
    let q : ObjectProgram := ⟨[0xEF, 0xBF, 0xBD], Utf8.encode "kprobe/vfs_write"⟩
    let o : Object := ⟨[p, q], fun _ => none, fun _ => none⟩
    (o.programs.map (·.name)).Nodup ∧ o.selected? "kprobe/vfs_read" = some p ∧
      Hook.ofTarget .kprobe "vfs_read" = .ok (.kprobe "vfs_read") ∧
      o.attachRequests .fresh p.ref .kprobe "vfs_read" = [.attach q (.kprobe "vfs_read")] := by
  intro p q o
  have hnames : (o.programs.map (·.name)).Nodup := by decide
  have hp : o.selected? "kprobe/vfs_read" = some p := by decide +kernel
  have htarget : Hook.ofTarget .kprobe "vfs_read" = .ok (.kprobe "vfs_read") := rfl
  have hlossy : Utf8.encode (Utf8.lossy p.name) = q.name := by decide +kernel
  have hnot : ¬ p.IsNamed := by
    rw [← p.encode_ref_eq_iff]
    intro heq
    have hsame : q.name = p.name := hlossy.symm.trans heq
    exact absurd hsame (by decide)
  have hreached := attach_selected hnames hp .fresh htarget
  have hq : q ∈ o.programs := List.mem_cons_of_mem _ List.mem_cons_self
  exact ⟨hnames, hp, htarget, (hreached.other hnot q hq hlossy.symm).2⟩

/-- A single program whose name is no text is found by its title, and then nothing is attached. -/
theorem attach_lost :
    let p : ObjectProgram := ⟨[0x71, 0xFE], Utf8.encode "kprobe/vfs_read"⟩
    let o : Object := ⟨[p], fun _ => none, fun _ => none⟩
    (o.programs.map (·.name)).Nodup ∧ o.titled? "kprobe/vfs_read" = some p ∧
      (Link.resolve o.host .fresh "kprobe/vfs_read").result = .ok p.ref ∧
      Hook.ofTarget .kprobe "vfs_read" = .ok (.kprobe "vfs_read") ∧
      o.attachRequests .fresh p.ref .kprobe "vfs_read" = [] ∧
      (Link.attach o.host .fresh p.ref .kprobe "vfs_read").result = .error
        (.attachFailed (.kprobe "vfs_read") (.ofMessage "Couldn't get program q\uFFFD")) := by
  decide +kernel

end Object

end ProbeLoader
