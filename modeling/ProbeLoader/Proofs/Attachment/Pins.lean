import ProbeLoader.Host.Script
import ProbeLoader.Proofs.Attachment.Parts
import Mathlib.Data.Finset.Card
import Mathlib.Data.Finset.Image
import Mathlib.Data.List.Basic

/-!
# Paths that are taken

With exclusive pins a path belongs to the first link that is pinned at it. A directive is eligible
if nothing but that can go wrong with it. The paths taken during a run are then, each of them once,
the paths of the eligible directives, and as every success takes one path, there are as many
successes as such paths.
-/

namespace ProbeLoader

namespace Script

/-- Whether a directive can only fail because its path is taken: its program is known, its target
names a hook point, and neither that nor its path is refused. -/
def isEligible (s : Script) (d : Directive) : Bool :=
  (s.host.program? d.programName).isSome &&
    match Hook.ofTarget d.kind d.target with
    | .error _ => false
    | .ok hook => (s.attachFailure hook).isNone && (s.pinFailure d.pinPath.shown).isNone

theorem isEligible_iff {s : Script} {d : Directive} :
    s.isEligible d = true ↔ (∃ p, s.host.program? d.programName = some p) ∧
      ∃ hook, Hook.ofTarget d.kind d.target = .ok hook ∧ s.attachFailure hook = none ∧
        s.pinFailure d.pinPath.shown = none := by
  unfold isEligible
  rw [Bool.and_eq_true, Option.isSome_iff_exists]
  cases Hook.ofTarget d.kind d.target with
  | error e => simp
  | ok hook => simp

theorem isTaken_iff {s : Script} (hpins : s.exclusivePins = true) {pinned : List Path}
    {path : Path} : s.isTaken pinned path = true ↔ path.shown ∈ pinned.map Path.shown := by
  unfold isTaken
  rw [hpins, Bool.true_and, List.any_eq_true, List.mem_map]
  simp only [beq_iff_eq]

/-- What becomes of a directive: it fails by itself, its path is taken, or it takes its path. -/
inductive Claimed (s : Script) (t : Session) (d : Directive) : Outcome Unit → Prop where
  | ineligible {o : Outcome Unit} {e : DirectiveError} : s.isEligible d = false →
      o.result = .error e → o.session.pinned = t.pinned → Claimed s t d o
  | taken {o : Outcome Unit} (p : ProgramRef) (hook : Hook) : s.isEligible d = true →
      s.isTaken t.pinned d.pinPath = true →
      o.result = .error (.pinFailed d.pinPath alreadyPinned) →
      o.session = ⟨t.links + 1, t.pinned⟩ →
      o.trace.calls = s.host.lookups d.programName ++
        [.attach p hook, .pin (t.links + 1) d.pinPath, .detach (t.links + 1)] → Claimed s t d o
  | free {o : Outcome Unit} (p : ProgramRef) (hook : Hook) : s.isEligible d = true →
      s.isTaken t.pinned d.pinPath = false → o.result = .ok () →
      o.session = ⟨t.links + 1, d.pinPath :: t.pinned⟩ →
      o.trace.calls = s.host.lookups d.programName ++
        [.attach p hook, .pin (t.links + 1) d.pinPath, .disconnect (t.links + 1)] →
      Claimed s t d o

theorem pinFailure_eq_none_iff {s : Script} {pinned : List Path} {path : Path} :
    s.host.pinFailure pinned path = none ↔
      s.pinFailure path.shown = none ∧ s.isTaken pinned path = false := by
  simp [host]

theorem pinFailure_eq_alreadyPinned {s : Script} {pinned : List Path} {path : Path} {chain : Chain}
    (hpath : s.pinFailure path.shown = none) (hfail : s.host.pinFailure pinned path = some chain) :
    s.isTaken pinned path = true ∧ chain = alreadyPinned := by
  simp only [host, hpath, Option.none_or] at hfail
  split at hfail
  · rename_i htaken
    exact ⟨htaken, (Option.some.inj hfail).symm⟩
  · exact nomatch hfail

theorem isEligible_eq_false {s : Script} {d : Directive}
    (h : ∀ p hook, s.host.program? d.programName = some p →
      Hook.ofTarget d.kind d.target = .ok hook → s.attachFailure hook = none →
      s.pinFailure d.pinPath.shown ≠ none) : s.isEligible d = false := by
  apply Bool.eq_false_iff.mpr
  intro helig
  obtain ⟨⟨p, hp⟩, hook, ht, ha, hf⟩ := isEligible_iff.mp helig
  exact h p hook hp ht ha hf

theorem process_claimed (s : Script) (t : Session) (d : Directive) :
    Claimed s t d (Link.process s.host t d) := by
  have hp := Link.process_processed s.host t d
  generalize Link.process s.host t d = o at hp ⊢
  cases hp with
  | unknown hnone =>
    refine .ineligible (isEligible_eq_false fun p hook hp => ?_) rfl rfl
    exact absurd (hnone.symm.trans hp) nofun
  | invalid _ herror =>
    refine .ineligible (isEligible_eq_false fun p hook _ ht => ?_) rfl rfl
    exact absurd (herror.symm.trans ht) nofun
  | @refused p hook chain _ hhook hrefused =>
    refine .ineligible (isEligible_eq_false fun p hook' _ ht ha => ?_) rfl rfl
    obtain rfl := Except.ok.inj (hhook.symm.trans ht)
    exact absurd (hrefused.symm.trans ha) nofun
  | @unpinned p hook chain hprogram hhook hattach hrefused =>
    cases hpath : s.pinFailure d.pinPath.shown with
    | some chain' =>
      refine .ineligible (isEligible_eq_false fun p hook' _ _ _ => ?_) rfl rfl
      rw [hpath]
      exact Option.some_ne_none _
    | none =>
      obtain ⟨htaken, rfl⟩ := pinFailure_eq_alreadyPinned hpath hrefused
      have helig := isEligible_iff.mpr ⟨⟨p, hprogram⟩, hook, hhook, hattach, hpath⟩
      exact .taken p hook helig htaken rfl rfl (by simp)
  | @pinned p hook hprogram hhook hattach hpin =>
    obtain ⟨hpath, hfree⟩ := pinFailure_eq_none_iff.mp hpin
    have helig := isEligible_iff.mpr ⟨⟨p, hprogram⟩, hook, hhook, hattach, hpath⟩
    exact .free p hook helig hfree rfl rfl (by simp)

section

open Attachment

variable {s : Script} {t : Session} {ds : List Directive}

/-- The paths that are taken after a run are those taken before and those of the eligible
directives. -/
theorem mem_pinned_work (hpins : s.exclusivePins = true) {text : String} :
    text ∈ (work s.host t ds).session.pinned.map Path.shown ↔
      text ∈ t.pinned.map Path.shown ∨
        ∃ d ∈ ds, s.isEligible d = true ∧ d.pinPath.shown = text := by
  induction ds generalizing t with
  | nil => simp
  | cons d ds ih =>
    rw [session_work_cons, ih, List.exists_mem_cons_iff, ← or_assoc]
    apply or_congr_left
    have hd := process_claimed s t d
    generalize Link.process s.host t d = o at hd ⊢
    cases hd with
    | ineligible helig _ hpinned => simp [helig, hpinned]
    | taken p hook helig htaken _ hsession _ =>
      rw [isTaken_iff hpins] at htaken
      rw [hsession]
      constructor
      · exact Or.inl
      · rintro (hmem | ⟨-, rfl⟩)
        · exact hmem
        · exact htaken
    | free p hook helig _ _ hsession _ =>
      rw [hsession, List.map_cons, List.mem_cons]
      constructor
      · rintro (rfl | hmem)
        · exact Or.inr ⟨helig, rfl⟩
        · exact Or.inl hmem
      · rintro (hmem | ⟨-, rfl⟩)
        · exact Or.inr hmem
        · exact Or.inl rfl

/-- No path is taken twice. -/
theorem nodup_pinned_work (hpins : s.exclusivePins = true)
    (hnodup : (t.pinned.map Path.shown).Nodup) :
    ((work s.host t ds).session.pinned.map Path.shown).Nodup := by
  induction ds generalizing t with
  | nil => exact hnodup
  | cons d ds ih =>
    rw [session_work_cons]
    apply ih
    have hd := process_claimed s t d
    generalize Link.process s.host t d = o at hd ⊢
    cases hd with
    | ineligible _ _ hpinned => rw [hpinned]; exact hnodup
    | taken _ _ _ _ _ hsession _ => rw [hsession]; exact hnodup
    | free _ _ _ hfree _ hsession _ =>
      rw [hsession, List.map_cons, List.nodup_cons]
      refine ⟨?_, hnodup⟩
      rw [← isTaken_iff hpins, hfree]
      exact Bool.false_ne_true

/-- Every success takes one path. -/
theorem length_pinned_work :
    (work s.host t ds).session.pinned.length =
      t.pinned.length + (work s.host t ds).outcomes.countP fun o => o.2.isNone := by
  induction ds generalizing t with
  | nil => rfl
  | cons d ds ih =>
    rw [session_work_cons, ih, outcomes_work_cons, List.countP_cons]
    have hd := process_claimed s t d
    generalize Link.process s.host t d = o at hd ⊢
    cases hd with
    | ineligible _ hresult hpinned => simp [hresult, hpinned, failure?]
    | taken _ _ _ _ hresult hsession _ => simp [hresult, hsession, failure?]
    | free _ _ _ _ hresult hsession _ =>
      simp only [hresult, hsession, failure?, List.length_cons, Option.isNone_none, if_true]
      omega

/-- There are as many successes as paths of eligible directives. -/
theorem succeeded_eq_card (hpins : s.exclusivePins = true) (ds : List Directive) :
    (attachAll s.host ds).report.summary.succeeded =
      ((ds.filter s.isEligible).map fun d => d.pinPath.shown).toFinset.card := by
  have hnodup : ((work s.host .fresh ds).session.pinned.map Path.shown).Nodup :=
    nodup_pinned_work hpins List.nodup_nil
  have hlength : (work s.host .fresh ds).session.pinned.length =
      (work s.host .fresh ds).outcomes.countP fun o => o.2.isNone :=
    length_pinned_work.trans (Nat.zero_add _)
  have htexts : ((work s.host .fresh ds).session.pinned.map Path.shown).toFinset =
      ((ds.filter s.isEligible).map fun d => d.pinPath.shown).toFinset := by
    ext text
    rw [List.mem_toFinset, List.mem_toFinset, mem_pinned_work hpins]
    simp [Session.fresh, and_assoc]
  calc (attachAll s.host ds).report.summary.succeeded
    _ = (work s.host .fresh ds).outcomes.countP fun o => o.2.isNone := by
        rw [RunReport.summary, outcomes_attachAll]
    _ = (work s.host .fresh ds).session.pinned.length := hlength.symm
    _ = ((work s.host .fresh ds).session.pinned.map Path.shown).toFinset.card := by
        rw [List.toFinset_card_of_nodup hnodup, List.length_map]
    _ = _ := by rw [htexts]

end

end Script

end ProbeLoader
