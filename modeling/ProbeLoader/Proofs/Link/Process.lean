import ProbeLoader.Attachment

/-!
# What one directive can come to

The five ways in which a directive is processed, each with the events it leaves behind: its
program is unknown, its target is invalid, the host refuses to attach or to pin, or the link is
pinned. What holds of every run of directives is read off these five cases. The program is looked
up before anything else happens, and looking it up changes nothing.
-/

namespace ProbeLoader

open Attachment

/-- The program that a name or else a section title leads to. -/
def Host.program? (h : Host) (name : String) : Option ProgramRef :=
  (h.find name).or (h.findByTitle name)

/-- The calls that look a program up, each made only if those before it found nothing. -/
def Host.lookups (h : Host) (name : String) : List Call :=
  .find name ::
    if (h.find name).isSome then []
    else .findByTitle name :: if (h.findByTitle name).isSome then [] else [.names]

namespace Link

theorem resolve_cases (h : Host) (s : Session) (name : String) :
    (∃ p, h.program? name = some p ∧ (resolve h s name).result = .ok p) ∨
      (h.program? name = none ∧
        (resolve h s name).result = .error (.programNotFound name h.names)) := by
  unfold resolve Host.program?
  cases h.find name with
  | some p => exact Or.inl ⟨p, rfl, rfl⟩
  | none =>
    cases h.findByTitle name with
    | some p => exact Or.inl ⟨p, rfl, rfl⟩
    | none => exact Or.inr ⟨rfl, rfl⟩

@[simp] theorem calls_resolve (h : Host) (s : Session) (name : String) :
    (resolve h s name).trace.calls = h.lookups name := by
  unfold resolve Host.lookups
  cases h.find name with
  | some p => rfl
  | none => cases h.findByTitle name <;> rfl

theorem mem_lookups {h : Host} {name : String} {c : Call} (hc : c ∈ h.lookups name) :
    c = .find name ∨ c = .findByTitle name ∨ c = .names := by
  unfold Host.lookups at hc
  rcases List.mem_cons.mp hc with rfl | hc
  · exact Or.inl rfl
  · split at hc
    · exact absurd hc List.not_mem_nil
    · rcases List.mem_cons.mp hc with rfl | hc
      · exact Or.inr (Or.inl rfl)
      · split at hc
        · exact absurd hc List.not_mem_nil
        · exact Or.inr (Or.inr (List.mem_singleton.mp hc))

/-- How a directive is processed from a session on. -/
inductive Processed (h : Host) (s : Session) (d : Directive) : Outcome Unit → Prop where
  | unknown : h.program? d.programName = none →
      Processed h s d ⟨.error (.programNotFound d.programName h.names), s,
        (resolve h s d.programName).trace⟩
  | invalid {p : ProgramRef} {e : Hook.TargetError} : h.program? d.programName = some p →
      Hook.ofTarget d.kind d.target = .error e →
      Processed h s d ⟨.error (.invalidTarget d.kind d.target e.message), s,
        (resolve h s d.programName).trace⟩
  | refused {p : ProgramRef} {hook : Hook} {chain : Chain} :
      h.program? d.programName = some p → Hook.ofTarget d.kind d.target = .ok hook →
      h.attachFailure p hook = some chain →
      Processed h s d ⟨.error (.attachFailed hook chain), s,
        (resolve h s d.programName).trace ++ [.call (.attach p hook)]⟩
  | unpinned {p : ProgramRef} {hook : Hook} {chain : Chain} :
      h.program? d.programName = some p → Hook.ofTarget d.kind d.target = .ok hook →
      h.attachFailure p hook = none → h.pinFailure s.pinned d.pinPath = some chain →
      Processed h s d ⟨.error (.pinFailed d.pinPath chain), { s with links := s.links + 1 },
        (resolve h s d.programName).trace ++
          [.call (.attach p hook), .say (attachedLine hook),
            .call (.pin (s.links + 1) d.pinPath), .call (.detach (s.links + 1))]⟩
  | pinned {p : ProgramRef} {hook : Hook} :
      h.program? d.programName = some p → Hook.ofTarget d.kind d.target = .ok hook →
      h.attachFailure p hook = none → h.pinFailure s.pinned d.pinPath = none →
      Processed h s d ⟨.ok (), ⟨s.links + 1, d.pinPath :: s.pinned⟩,
        (resolve h s d.programName).trace ++
          [.call (.attach p hook), .say (attachedLine hook),
            .call (.pin (s.links + 1) d.pinPath), .call (.disconnect (s.links + 1)),
            .say (pinnedLine d.pinPath)]⟩

theorem process_processed (h : Host) (s : Session) (d : Directive) :
    Processed h s d (process h s d) := by
  rcases resolve_cases h s d.programName with ⟨p, hp, hr⟩ | ⟨hp, hr⟩
  · cases ht : Hook.ofTarget d.kind d.target with
    | error e =>
      have hi := Processed.invalid (s := s) hp ht
      simpa only [process, hr, attach, ht, List.append_nil] using hi
    | ok hook =>
      cases ha : h.attachFailure p hook with
      | some chain =>
        have hi := Processed.refused (s := s) hp ht ha
        simpa only [process, hr, attach, ht, attachAt, ha] using hi
      | none =>
        cases hf : h.pinFailure s.pinned d.pinPath with
        | some chain =>
          have hi := Processed.unpinned hp ht ha hf
          simpa only [process, hr, attach, ht, attachAt, ha, persist, hf, List.append_assoc,
            List.cons_append, List.nil_append] using hi
        | none =>
          have hi := Processed.pinned hp ht ha hf
          simpa only [process, hr, attach, ht, attachAt, ha, persist, hf, List.append_assoc,
            List.cons_append, List.nil_append] using hi
  · simpa only [process, hr] using Processed.unknown hp

end Link

end ProbeLoader
