import ProbeLoader.Proofs.Attachment.Pins
import ProbeLoader.Text.Utf8.RoundTrip

/-!
# Directives with one pin path

With exclusive pins the first eligible directive of a path owns it. Every later one is attached,
refused and detached again, while the link of the owner stays as it was. Who owns a path depends on
the order of the directives, but how many paths are owned does not: it is the number of paths that
the eligible directives have between them, so it can only grow when directives are added or the
module refuses less.
-/

namespace ProbeLoader

/-- Whether the bytes of a path are a text. -/
def Path.IsText (p : Path) : Prop :=
  ∃ text, p = .ofString text

theorem Path.eq_of_shown_eq {p q : Path} (hp : p.IsText) (hq : q.IsText)
    (h : p.shown = q.shown) : p = q := by
  obtain ⟨text, rfl⟩ := hp
  obtain ⟨text', rfl⟩ := hq
  simp only [Path.shown, Path.ofString, Utf8.lossy_encode] at h
  rw [h]

/-- The module without what it refuses at the hook point of a name. -/
def Script.withoutAttachFailure (s : Script) (key : String) : Script :=
  { s with attachFailure := fun hook => if hook.key = key then none else s.attachFailure hook }

/-- The module without what it refuses at a path. -/
def Script.withoutPinFailure (s : Script) (text : String) : Script :=
  { s with pinFailure := fun path => if path = text then none else s.pinFailure path }

/-- The directive after others makes a link of its own, pins it and settles it by the next call,
and no other call is about that link. -/
structure OwnLink (h : Host) (before : List Directive) (d : Directive) (settle : LinkId → Call)
    (calls : List Call) : Prop where
  made : ∃ p hook rest, calls = (attachAll h before).trace.calls.dropLast ++
    (h.lookups d.programName ++ .attach p hook :: .pin (Attachment.nextLink h before) d.pinPath ::
      settle (Attachment.nextLink h before) :: rest)
  only : about (Attachment.nextLink h before) calls =
    [.pin (Attachment.nextLink h before) d.pinPath, settle (Attachment.nextLink h before)]

namespace Attachment

/-- A directive whose calls are those of one link has that link for itself in the whole run. -/
theorem ownLink_attachAll {h : Host} {before after : List Directive} {d : Directive}
    {settle : LinkId → Call} (hsettle : ∀ link, (settle link).link? = some link)
    {p : ProgramRef} {hook : Hook}
    (hlinks : (Link.process h (work h .fresh before).session d).session.links =
      (work h .fresh before).session.links + 1)
    (hcalls : (Link.process h (work h .fresh before).session d).trace.calls =
      h.lookups d.programName ++ [.attach p hook,
        .pin ((work h .fresh before).session.links + 1) d.pinPath,
        settle ((work h .fresh before).session.links + 1)]) :
    OwnLink h before d settle (attachAll h (before ++ d :: after)).trace.calls := by
  have hlast : (attachAll h (before ++ d :: after)).trace.calls =
      (work h .fresh (before ++ d :: after)).trace.calls ++
        [lastCall (attachAll h (before ++ d :: after)).report] := by
    rw [← dropLast_calls_attachAll, calls_attachAll, List.dropLast_concat]
  refine ⟨⟨p, hook, (work h (Link.process h (work h .fresh before).session d).session
    after).trace.calls ++ [lastCall (attachAll h (before ++ d :: after)).report], ?_⟩, ?_⟩
  · rw [hlast, dropLast_calls_attachAll, calls_work_append, calls_work_cons, hcalls, nextLink_eq]
    simp only [List.append_assoc, List.cons_append, List.nil_append]
  · have hself (link : LinkId) : about link [settle link] = [settle link] :=
      List.filter_cons_of_pos (beq_iff_eq.mpr (hsettle link))
    rw [about_attachAll, (processAll_numbering h _ 0 1 0 .fresh _).2.2, nextLink_eq]
    change about _ (work h .fresh (before ++ d :: after)).trace.calls = _
    rw [about_work_middle h .fresh before after d (Nat.lt_succ_self _) hlinks.ge, hcalls,
      about_append, about_lookups, List.nil_append, about_cons_attach, about_cons_pin,
      if_pos rfl, hself]

end Attachment

namespace Script

open Attachment

variable {s : Script} {ds : List Directive}

theorem isTaken_work_iff (hpins : s.exclusivePins = true) {before : List Directive} {path : Path} :
    s.isTaken (work s.host .fresh before).session.pinned path = true ↔
      ∃ e ∈ before, s.isEligible e = true ∧ e.pinPath.shown = path.shown := by
  rw [isTaken_iff hpins, mem_pinned_work hpins]
  simp [Session.fresh]

/-- A directive whose path is free owns it. -/
theorem owns_of_free (hpins : s.exclusivePins = true) {before : List Directive} {d : Directive}
    (helig : s.isEligible d = true)
    (hfree : ∀ e ∈ before, s.isEligible e = true → e.pinPath.shown ≠ d.pinPath.shown)
    (after : List Directive) :
    (attachAll s.host (before ++ d :: after)).report.outcomes[before.length]? = some (d, none) ∧
      OwnLink s.host before d .disconnect (attachAll s.host (before ++ d :: after)).trace.calls := by
  rw [getElem?_outcomes_attachAll]
  have hd := process_claimed s (work s.host .fresh before).session d
  cases hd with
  | ineligible hnot => exact absurd (hnot.symm.trans helig) Bool.false_ne_true
  | taken p hook _ htaken =>
    obtain ⟨e, he, hee, heq⟩ := (isTaken_work_iff hpins).mp htaken
    exact absurd heq (hfree e he hee)
  | free p hook _ _ hresult hsession hcalls =>
    refine ⟨by rw [hresult]; rfl, ?_⟩
    exact ownLink_attachAll (fun _ => rfl) (congrArg Session.links hsession) hcalls

/-- A directive whose path is taken is attached and detached. -/
theorem collides_of_taken (hpins : s.exclusivePins = true) {before : List Directive}
    {d : Directive} (helig : s.isEligible d = true)
    (htaken : ∃ e ∈ before, s.isEligible e = true ∧ e.pinPath.shown = d.pinPath.shown)
    (after : List Directive) :
    (attachAll s.host (before ++ d :: after)).report.outcomes[before.length]? =
        some (d, some (.pinFailed d.pinPath alreadyPinned)) ∧
      OwnLink s.host before d .detach (attachAll s.host (before ++ d :: after)).trace.calls := by
  rw [getElem?_outcomes_attachAll]
  have hd := process_claimed s (work s.host .fresh before).session d
  cases hd with
  | ineligible hnot => exact absurd (hnot.symm.trans helig) Bool.false_ne_true
  | free p hook _ hfree =>
    exact absurd (hfree.symm.trans ((isTaken_work_iff hpins).mpr htaken)) Bool.false_ne_true
  | taken p hook _ _ hresult hsession hcalls =>
    refine ⟨by rw [hresult]; rfl, ?_⟩
    exact ownLink_attachAll (fun _ => rfl) (congrArg Session.links hsession) hcalls

theorem fails_of_not_isEligible {before : List Directive} {d : Directive}
    (hnot : s.isEligible d = false) (after : List Directive) :
    (attachAll s.host (before ++ d :: after)).report.outcomes[before.length]? ≠
      some (d, none) := by
  rw [getElem?_outcomes_attachAll]
  have hd := process_claimed s (work s.host .fresh before).session d
  cases hd with
  | ineligible _ hresult => simp [hresult, failure?]
  | taken _ _ helig => exact absurd (hnot.symm.trans helig) Bool.false_ne_true
  | free _ _ helig => exact absurd (hnot.symm.trans helig) Bool.false_ne_true

/-- Of the eligible directives of a path there is a first one. -/
theorem exists_owner {before : List Directive} {path : Path}
    (htaken : ∃ e ∈ before, s.isEligible e = true ∧ e.pinPath = path) :
    ∃ first owner between, before = first ++ owner :: between ∧ s.isEligible owner = true ∧
      owner.pinPath = path ∧ ∀ e ∈ first, s.isEligible e = true → e.pinPath ≠ path := by
  obtain ⟨e, he, hee, heq⟩ := htaken
  have hfound : (before.find? fun e => s.isEligible e && decide (e.pinPath = path)).isSome := by
    rw [List.find?_isSome]
    exact ⟨e, he, by simp [hee, heq]⟩
  obtain ⟨owner, howner⟩ := Option.isSome_iff_exists.mp hfound
  obtain ⟨hboth, first, between, hsplit, hfirst⟩ := List.find?_eq_some_iff_append.mp howner
  rw [Bool.and_eq_true, decide_eq_true_eq] at hboth
  refine ⟨first, owner, between, hsplit, hboth.1, hboth.2, ?_⟩
  intro e he helig heq
  simpa [helig, heq] using hfirst e he

/-- A run succeeds as often as another one that has all its eligible directives. -/
theorem succeeded_mono {s' : Script} {es : List Directive} (hpins : s.exclusivePins = true)
    (hpins' : s'.exclusivePins = true)
    (h : ∀ d ∈ ds, s.isEligible d = true → d ∈ es ∧ s'.isEligible d = true) :
    (attachAll s.host ds).report.summary.succeeded ≤
      (attachAll s'.host es).report.summary.succeeded := by
  rw [succeeded_eq_card hpins, succeeded_eq_card hpins']
  apply Finset.card_le_card
  intro text htext
  obtain ⟨d, hd, rfl⟩ := List.mem_map.mp (List.mem_toFinset.mp htext)
  obtain ⟨hmem, helig⟩ := List.mem_filter.mp hd
  obtain ⟨hmem', helig'⟩ := h d hmem helig
  exact List.mem_toFinset.mpr (List.mem_map.mpr ⟨d, List.mem_filter.mpr ⟨hmem', helig'⟩, rfl⟩)

theorem succeeded_eq_of_perm {es : List Directive} (hpins : s.exclusivePins = true)
    (hperm : ds.Perm es) : (attachAll s.host ds).report.summary.succeeded =
      (attachAll s.host es).report.summary.succeeded := by
  apply Nat.le_antisymm
  · exact succeeded_mono hpins hpins fun d hd helig => ⟨hperm.mem_iff.mp hd, helig⟩
  · exact succeeded_mono hpins hpins fun d hd helig => ⟨hperm.mem_iff.mpr hd, helig⟩

theorem isEligible_withoutAttachFailure {key : String} {d : Directive}
    (h : s.isEligible d = true) : (s.withoutAttachFailure key).isEligible d = true := by
  obtain ⟨hp, hook, ht, ha, hf⟩ := isEligible_iff.mp h
  refine isEligible_iff.mpr ⟨hp, hook, ht, ?_, hf⟩
  simp [withoutAttachFailure, ha]

theorem isEligible_withoutPinFailure {text : String} {d : Directive}
    (h : s.isEligible d = true) : (s.withoutPinFailure text).isEligible d = true := by
  obtain ⟨hp, hook, ht, ha, hf⟩ := isEligible_iff.mp h
  refine isEligible_iff.mpr ⟨hp, hook, ht, ha, ?_⟩
  simp [withoutPinFailure, hf]

theorem succeeded_eq_card_paths (hpins : s.exclusivePins = true)
    (hds : ∀ d ∈ ds, d.pinPath.IsText) :
    (attachAll s.host ds).report.summary.succeeded =
      ((ds.filter s.isEligible).map (·.pinPath)).toFinset.card := by
  have himage : ((ds.filter s.isEligible).map fun d => d.pinPath.shown).toFinset =
      ((ds.filter s.isEligible).map (·.pinPath)).toFinset.image Path.shown := by
    ext text
    simp
  have htext : ∀ p ∈ ((ds.filter s.isEligible).map (·.pinPath)).toFinset, p.IsText := by
    intro p hp
    obtain ⟨d, hd, rfl⟩ := List.mem_map.mp (List.mem_toFinset.mp hp)
    exact hds d (List.mem_filter.mp hd).1
  rw [succeeded_eq_card hpins, himage]
  apply Finset.card_image_of_injOn
  intro p hp q hq heq
  exact Path.eq_of_shown_eq (htext p hp) (htext q hq) heq

end Script

/-- How directives share the paths of a module with exclusive pins. -/
structure PathsOwned (s : Script) (ds : List Directive) : Prop where
  /-- A directive succeeds if and only if it is eligible and the first eligible one of its path. -/
  succeeds : ∀ before d after, ds = before ++ d :: after →
    ((attachAll s.host ds).report.outcomes[before.length]? = some (d, none) ↔
      s.isEligible d = true ∧ ∀ e ∈ before, s.isEligible e = true → e.pinPath ≠ d.pinPath)
  /-- Every other eligible directive is told that the path exists and loses its own link, and
  nothing happens any more to the link of the first one after it was disconnected. -/
  collides : ∀ before d after, ds = before ++ d :: after → s.isEligible d = true →
    (∃ e ∈ before, s.isEligible e = true ∧ e.pinPath = d.pinPath) →
    (attachAll s.host ds).report.outcomes[before.length]? =
        some (d, some (.pinFailed d.pinPath (.ofMessage "File exists (os error 17)"))) ∧
      OwnLink s.host before d .detach (attachAll s.host ds).trace.calls ∧
      ∃ first owner between, before = first ++ owner :: between ∧ s.isEligible owner = true ∧
        owner.pinPath = d.pinPath ∧
        (∀ e ∈ first, s.isEligible e = true → e.pinPath ≠ d.pinPath) ∧
        OwnLink s.host first owner .disconnect (attachAll s.host ds).trace.calls
  succeeded : (attachAll s.host ds).report.summary.succeeded =
    ((ds.filter s.isEligible).map (·.pinPath)).toFinset.card
  permuted : ∀ es, ds.Perm es → (attachAll s.host es).report.summary.succeeded =
    (attachAll s.host ds).report.summary.succeeded
  added : ∀ before d after, ds = before ++ after →
    (attachAll s.host ds).report.summary.succeeded ≤
      (attachAll s.host (before ++ d :: after)).report.summary.succeeded
  attachable : ∀ key, (attachAll s.host ds).report.summary.succeeded ≤
    (attachAll (s.withoutAttachFailure key).host ds).report.summary.succeeded
  pinnable : ∀ text, (attachAll s.host ds).report.summary.succeeded ≤
    (attachAll (s.withoutPinFailure text).host ds).report.summary.succeeded

namespace Script

open Attachment

variable {s : Script} {before after : List Directive} {d : Directive}

/-- The first eligible directive of a path succeeds, and none but those. -/
theorem succeeds_iff (hpins : s.exclusivePins = true)
    (htexts : ∀ e ∈ before ++ d :: after, e.pinPath.IsText) :
    (attachAll s.host (before ++ d :: after)).report.outcomes[before.length]? = some (d, none) ↔
      s.isEligible d = true ∧
        ∀ e ∈ before, s.isEligible e = true → e.pinPath ≠ d.pinPath := by
  constructor
  · intro hnone
    have helig : s.isEligible d = true := by
      by_contra hnot
      exact fails_of_not_isEligible (Bool.eq_false_iff.mpr hnot) after hnone
    refine ⟨helig, fun e he hee heq => ?_⟩
    have htaken := collides_of_taken hpins helig ⟨e, he, hee, congrArg Path.shown heq⟩ after
    simp [htaken.1] at hnone
  · rintro ⟨helig, hfree⟩
    refine (owns_of_free hpins helig (fun e he hee heq => ?_) after).1
    exact hfree e he hee (Path.eq_of_shown_eq (htexts e (by simp [he])) (htexts d (by simp)) heq)

/-- Whoever collides with another directive collides with an owner, who keeps its link. -/
theorem exists_owner_link (hpins : s.exclusivePins = true)
    (htexts : ∀ e ∈ before ++ d :: after, e.pinPath.IsText)
    (htaken : ∃ e ∈ before, s.isEligible e = true ∧ e.pinPath = d.pinPath) :
    ∃ first owner between, before = first ++ owner :: between ∧ s.isEligible owner = true ∧
      owner.pinPath = d.pinPath ∧
      (∀ e ∈ first, s.isEligible e = true → e.pinPath ≠ d.pinPath) ∧
      OwnLink s.host first owner .disconnect
        (attachAll s.host (before ++ d :: after)).trace.calls := by
  obtain ⟨first, owner, between, rfl, howner, hpath, hfirst⟩ := exists_owner htaken
  refine ⟨first, owner, between, rfl, howner, hpath, hfirst, ?_⟩
  have hfree : ∀ e ∈ first, s.isEligible e = true → e.pinPath.shown ≠ owner.pinPath.shown := by
    intro e he hee heq
    have hsame := Path.eq_of_shown_eq (htexts e (by simp [he])) (htexts owner (by simp)) heq
    exact hfirst e he hee (hsame.trans hpath)
  have howned := owns_of_free hpins howner hfree (between ++ d :: after)
  rw [List.append_assoc, List.cons_append]
  exact howned.2

theorem succeeded_le_of_added (hpins : s.exclusivePins = true) :
    (attachAll s.host (before ++ after)).report.summary.succeeded ≤
      (attachAll s.host (before ++ d :: after)).report.summary.succeeded := by
  refine succeeded_mono hpins hpins fun e he helig => ⟨?_, helig⟩
  rcases List.mem_append.mp he with he | he
  · exact List.mem_append_left _ he
  · exact List.mem_append_right _ (List.mem_cons_of_mem d he)

end Script

open Script in
/-- With exclusive pins every path goes to the first eligible directive that asks for it, and a run
succeeds as often as there are paths that eligible directives ask for. -/
theorem attachAll_pathsOwned (s : Script) (hpins : s.exclusivePins = true) (ds : List Directive)
    (hds : ∀ d ∈ ds, d.pinPath.IsText) : PathsOwned s ds := by
  refine ⟨?_, ?_, succeeded_eq_card_paths hpins hds, ?_, ?_, ?_, ?_⟩
  · rintro before d after rfl
    exact succeeds_iff hpins hds
  · rintro before d after rfl helig ⟨e, he, hee, heq⟩
    obtain ⟨hfailed, hlink⟩ :=
      collides_of_taken hpins helig ⟨e, he, hee, congrArg Path.shown heq⟩ after
    exact ⟨hfailed, hlink, exists_owner_link hpins hds ⟨e, he, hee, heq⟩⟩
  · intro es hperm
    exact (succeeded_eq_of_perm hpins hperm).symm
  · rintro before d after rfl
    exact succeeded_le_of_added hpins
  · intro key
    exact succeeded_mono hpins hpins fun d hd helig => ⟨hd, isEligible_withoutAttachFailure helig⟩
  · intro text
    exact succeeded_mono hpins hpins fun d hd helig => ⟨hd, isEligible_withoutPinFailure helig⟩

/-- Of two directives with one path the second is told that the path exists. -/
theorem attachAll_pathsOwned_pair :
    let s : Script :=
      { programs := [("count", "kprobe/vfs_read")]
        loadFailure := none
        attachFailure := fun _ => none
        pinFailure := fun _ => none
        exclusivePins := true }
    let owner : Directive := ⟨1, .ofString "/p/a", "count", .kprobe, "vfs_read"⟩
    let late : Directive := ⟨2, .ofString "/p/a", "count", .kprobe, "vfs_write"⟩
    s.exclusivePins = true ∧ (∀ d ∈ [owner, late], d.pinPath.IsText) ∧
      s.isEligible late = true ∧ s.isEligible owner = true ∧ owner.pinPath = late.pinPath ∧
      (attachAll s.host [owner, late]).report.outcomes[1]? =
        some (late, some (.pinFailed late.pinPath (.ofMessage "File exists (os error 17)"))) ∧
      OwnLink s.host [owner] late .detach (attachAll s.host [owner, late]).trace.calls := by
  intro s owner late
  have htexts : ∀ d ∈ [owner, late], d.pinPath.IsText := by
    intro d hd
    rcases List.mem_pair.mp hd with rfl | rfl
    · exact ⟨"/p/a", rfl⟩
    · exact ⟨"/p/a", rfl⟩
  have howner : s.isEligible owner = true := by decide
  have hlate : s.isEligible late = true := by decide
  have hcollides := (attachAll_pathsOwned s rfl [owner, late] htexts).collides [owner] late [] rfl
    hlate ⟨owner, List.mem_singleton_self owner, howner, rfl⟩
  exact ⟨rfl, htexts, hlate, howner, rfl, hcollides.1, hcollides.2.1⟩

end ProbeLoader
