import ProbeLoader.Host.Script
import ProbeLoader.Proofs.Link.Process

/-!
# What decides a directive

Over a scripted module the first program of a name is used, whatever titles the programs before it
have, and the first program of a title only if no program has that name. Then a directive is
decided by the first of four faults that it has, an unknown program, an invalid target, a refusal
to attach and a refusal to pin, and the calls stop with it. The relation below says so case by case,
and a directive is processed in one way exactly if the relation allows it.
-/

namespace ProbeLoader.Script

/-- What a name leads to among programs by name and title, and the calls that find it. -/
inductive Leads (programs : List (String × String)) (name : String) :
    Option ProgramRef → List Call → Prop where
  | named {title : String} {before after : List (String × String)} :
      programs = before ++ (name, title) :: after → (∀ p ∈ before, p.1 ≠ name) →
      Leads programs name (some ⟨name⟩) [.find name]
  | titled {own : String} {before after : List (String × String)} :
      (∀ p ∈ programs, p.1 ≠ name) → programs = before ++ (own, name) :: after →
      (∀ p ∈ before, p.2 ≠ name) →
      Leads programs name (some ⟨own⟩) [.find name, .findByTitle name]
  | unknown : (∀ p ∈ programs, p.1 ≠ name ∧ p.2 ≠ name) →
      Leads programs name none [.find name, .findByTitle name, .names]

/-- What a directive comes to after its program was looked up, and the calls made from then on. -/
inductive Decides (s : Script) (t : Session) (d : Directive) :
    Option ProgramRef → Except DirectiveError Unit → List Call → Prop where
  | unknown :
      Decides s t d none (.error (.programNotFound d.programName (s.programs.map (·.1)))) []
  | invalid {p : ProgramRef} {e : Hook.TargetError} : Hook.ofTarget d.kind d.target = .error e →
      Decides s t d (some p) (.error (.invalidTarget d.kind d.target e.message)) []
  | refused {p : ProgramRef} {hook : Hook} {chain : Chain} :
      Hook.ofTarget d.kind d.target = .ok hook → s.attachFailure hook = some chain →
      Decides s t d (some p) (.error (.attachFailed hook chain)) [.attach p hook]
  | unpinned {p : ProgramRef} {hook : Hook} {chain : Chain} :
      Hook.ofTarget d.kind d.target = .ok hook → s.attachFailure hook = none →
      s.host.pinFailure t.pinned d.pinPath = some chain →
      Decides s t d (some p) (.error (.pinFailed d.pinPath chain))
        [.attach p hook, .pin (t.links + 1) d.pinPath, .detach (t.links + 1)]
  | pinned {p : ProgramRef} {hook : Hook} :
      Hook.ofTarget d.kind d.target = .ok hook → s.attachFailure hook = none →
      s.host.pinFailure t.pinned d.pinPath = none →
      Decides s t d (some p) (.ok ())
        [.attach p hook, .pin (t.links + 1) d.pinPath, .disconnect (t.links + 1)]

section

variable {s : Script} {t : Session} {d : Directive} {name title : String} {p : ProgramRef}
  {program : Option ProgramRef} {calls : List Call}

theorem find_eq_some_iff : s.find name = some p ↔ p = ⟨name⟩ ∧
    ∃ title before after, s.programs = before ++ (name, title) :: after ∧
      ∀ q ∈ before, q.1 ≠ name := by
  unfold find
  rw [Option.map_eq_some_iff]
  simp only [List.find?_eq_some_iff_append, beq_iff_eq, Bool.not_eq_true', beq_eq_false_iff_ne]
  constructor
  · rintro ⟨⟨own, title⟩, ⟨rfl, before, after, hprograms, hbefore⟩, rfl⟩
    exact ⟨rfl, title, before, after, hprograms, hbefore⟩
  · rintro ⟨rfl, title, before, after, hprograms, hbefore⟩
    exact ⟨(name, title), ⟨rfl, before, after, hprograms, hbefore⟩, rfl⟩

theorem find_eq_none_iff : s.find name = none ↔ ∀ q ∈ s.programs, q.1 ≠ name := by
  unfold find
  simp only [Option.map_eq_none_iff, List.find?_eq_none, beq_iff_eq, ne_eq]

theorem findByTitle_eq_some_iff : s.findByTitle title = some p ↔
    ∃ before after, s.programs = before ++ (p.name, title) :: after ∧
      ∀ q ∈ before, q.2 ≠ title := by
  unfold findByTitle
  rw [Option.map_eq_some_iff]
  simp only [List.find?_eq_some_iff_append, beq_iff_eq, Bool.not_eq_true', beq_eq_false_iff_ne]
  constructor
  · rintro ⟨⟨own, title⟩, ⟨rfl, before, after, hprograms, hbefore⟩, rfl⟩
    exact ⟨before, after, hprograms, hbefore⟩
  · rintro ⟨before, after, hprograms, hbefore⟩
    exact ⟨(p.name, title), ⟨rfl, before, after, hprograms, hbefore⟩, rfl⟩

theorem findByTitle_eq_none_iff :
    s.findByTitle title = none ↔ ∀ q ∈ s.programs, q.2 ≠ title := by
  unfold findByTitle
  simp only [Option.map_eq_none_iff, List.find?_eq_none, beq_iff_eq, ne_eq]

theorem program?_host (s : Script) (name : String) :
    s.host.program? name = (s.find name).or (s.findByTitle name) := rfl

theorem lookups_host (s : Script) (name : String) :
    s.host.lookups name = .find name :: if (s.find name).isSome then []
      else .findByTitle name :: if (s.findByTitle name).isSome then [] else [.names] := rfl

theorem leads_iff : Leads s.programs name program calls ↔
    s.host.program? name = program ∧ s.host.lookups name = calls := by
  rw [program?_host, lookups_host]
  constructor
  · intro hleads
    cases hleads with
    | named hprograms hbefore =>
      have hfind := find_eq_some_iff.mpr ⟨rfl, _, _, _, hprograms, hbefore⟩
      simp [hfind]
    | titled hnames hprograms hbefore =>
      have hfind := find_eq_none_iff.mpr hnames
      have htitle := findByTitle_eq_some_iff.mpr ⟨_, _, hprograms, hbefore⟩
      simp [hfind, htitle]
    | unknown hprograms =>
      have hfind := find_eq_none_iff.mpr fun q hq => (hprograms q hq).1
      have htitle := findByTitle_eq_none_iff.mpr fun q hq => (hprograms q hq).2
      simp [hfind, htitle]
  · rintro ⟨rfl, rfl⟩
    cases hfind : s.find name with
    | some p =>
      obtain ⟨rfl, _, _, _, hprograms, hbefore⟩ := find_eq_some_iff.mp hfind
      exact .named hprograms hbefore
    | none =>
      have hnames := find_eq_none_iff.mp hfind
      cases htitle : s.findByTitle name with
      | some p =>
        obtain ⟨_, _, hprograms, hbefore⟩ := findByTitle_eq_some_iff.mp htitle
        exact .titled hnames hprograms hbefore
      | none =>
        have htitles := findByTitle_eq_none_iff.mp htitle
        exact .unknown fun q hq => ⟨hnames q hq, htitles q hq⟩

theorem Decides.unique {r r' : Except DirectiveError Unit} {calls' : List Call}
    (h : Decides s t d program r calls) (h' : Decides s t d program r' calls') :
    r = r' ∧ calls = calls' := by
  cases h <;> cases h' <;> simp_all

theorem exists_decides (s : Script) (t : Session) (d : Directive) :
    ∃ rest, Decides s t d (s.host.program? d.programName) (Link.process s.host t d).result rest ∧
      (Link.process s.host t d).trace.calls = s.host.lookups d.programName ++ rest := by
  have hprocessed := Link.process_processed s.host t d
  generalize Link.process s.host t d = o at hprocessed ⊢
  cases hprocessed with
  | unknown hprogram =>
    rw [hprogram]
    exact ⟨_, .unknown, by simp⟩
  | invalid hprogram htarget =>
    rw [hprogram]
    exact ⟨_, .invalid htarget, by simp⟩
  | refused hprogram htarget hattach =>
    rw [hprogram]
    exact ⟨_, .refused htarget hattach, by simp⟩
  | unpinned hprogram htarget hattach hpin =>
    rw [hprogram]
    exact ⟨_, .unpinned htarget hattach hpin, by simp⟩
  | pinned hprogram htarget hattach hpin =>
    rw [hprogram]
    exact ⟨_, .pinned htarget hattach hpin, by simp⟩

end

/-- A directive comes to a result by certain calls exactly if its program is looked up by the first
of them and the faults of the directive decide the result and the rest. -/
theorem process_iff_decides (s : Script) (t : Session) (d : Directive)
    (r : Except DirectiveError Unit) (calls : List Call) :
    (Link.process s.host t d).result = r ∧ (Link.process s.host t d).trace.calls = calls ↔
      ∃ program lookups rest, Leads s.programs d.programName program lookups ∧
        Decides s t d program r rest ∧ calls = lookups ++ rest := by
  obtain ⟨rest, hdecides, hcalls⟩ := exists_decides s t d
  constructor
  · rintro ⟨rfl, rfl⟩
    exact ⟨_, _, rest, leads_iff.mpr ⟨rfl, rfl⟩, hdecides, hcalls⟩
  · rintro ⟨program, lookups, rest', hleads, hdecides', rfl⟩
    obtain ⟨rfl, rfl⟩ := leads_iff.mp hleads
    obtain ⟨rfl, rfl⟩ := hdecides.unique hdecides'
    exact ⟨rfl, hcalls⟩

end ProbeLoader.Script
