import ProbeLoader.Host.Script
import ProbeLoader.Job
import ProbeLoader.Proofs.Attachment.Parts

/-!
# Directives do not touch each other

Where pins do not take paths away, a module answers every directive as if it were the only one.
What a directive comes to is then the same from every session; only the numbers of its links are
higher, by the links that were made before. So a run over two lists is the two runs one after the
other, and the order of directives decides nothing but the order of their outcomes.
-/

namespace ProbeLoader

/-- Whether earlier pins leave the answers of a host alone. -/
def Host.IsOblivious (h : Host) : Prop :=
  ∀ pinned pinned' path, h.pinFailure pinned path = h.pinFailure pinned' path

theorem Script.isOblivious_host {s : Script} (hpins : s.exclusivePins = false) :
    s.host.IsOblivious := by
  intro pinned pinned' path
  simp [Script.host, Script.isTaken, hpins]

/-- A call about a link that is `k` links later. -/
def Call.shift (k : Nat) : Call → Call
  | .pin link path => .pin (link + k) path
  | .disconnect link => .disconnect (link + k)
  | .detach link => .detach (link + k)
  | c => c

def Event.shift (k : Nat) : Event → Event
  | .call c => .call (c.shift k)
  | e => e

theorem Trace.calls_map_shift (k : Nat) (t : Trace) :
    Trace.calls (t.map (Event.shift k)) = t.calls.map (Call.shift k) := by
  induction t with
  | nil => rfl
  | cons e t ih => cases e <;> simp [Event.shift, ih]

namespace Link

variable {h : Host} {s t : Session} {d : Directive} {k : Nat}

/-- Looking a program up is about no link and depends on none. -/
theorem trace_resolve_shift (h : Host) (s t : Session) (name : String) (k : Nat) :
    (resolve h s name).trace = (resolve h t name).trace.map (Event.shift k) := by
  unfold resolve
  cases h.find name with
  | some p => rfl
  | none => cases h.findByTitle name <;> rfl

theorem Processed.unique {o o' : Outcome Unit} (ho : Processed h s d o)
    (ho' : Processed h s d o') : o = o' := by
  cases ho <;> cases ho' <;> simp_all

/-- What a directive comes to in one session it comes to in every other, with other links. -/
theorem Processed.shift {o : Outcome Unit} (hobl : h.IsOblivious) (ho : Processed h t d o)
    (hlinks : s.links = t.links + k) :
    ∃ pinned, Processed h s d
      ⟨o.result, ⟨o.session.links + k, pinned⟩, o.trace.map (Event.shift k)⟩ := by
  obtain ⟨links, pinned⟩ := s
  obtain rfl : links = t.links + k := hlinks
  have hlook := trace_resolve_shift h ⟨t.links + k, pinned⟩ t d.programName k
  have hnext : t.links + 1 + k = t.links + k + 1 := Nat.add_right_comm _ _ _
  cases ho with
  | unknown hp =>
    refine ⟨pinned, ?_⟩
    dsimp only
    rw [← hlook]
    exact .unknown hp
  | invalid hp ht =>
    refine ⟨pinned, ?_⟩
    dsimp only
    rw [← hlook]
    exact .invalid hp ht
  | refused hp ht ha =>
    refine ⟨pinned, ?_⟩
    dsimp only
    rw [List.map_append, ← hlook]
    exact .refused hp ht ha
  | unpinned hp ht ha hf =>
    refine ⟨pinned, ?_⟩
    dsimp only
    rw [List.map_append, ← hlook, hnext]
    simp only [List.map_cons, List.map_nil, Event.shift, Call.shift, hnext]
    exact .unpinned hp ht ha ((hobl pinned t.pinned d.pinPath).trans hf)
  | pinned hp ht ha hf =>
    refine ⟨d.pinPath :: pinned, ?_⟩
    dsimp only
    rw [List.map_append, ← hlook, hnext]
    simp only [List.map_cons, List.map_nil, Event.shift, Call.shift, hnext]
    exact .pinned hp ht ha ((hobl pinned t.pinned d.pinPath).trans hf)

theorem process_shift (hobl : h.IsOblivious) (hlinks : s.links = t.links + k) (d : Directive) :
    (process h s d).result = (process h t d).result ∧
      (process h s d).session.links = (process h t d).session.links + k ∧
      (process h s d).trace = (process h t d).trace.map (Event.shift k) := by
  obtain ⟨pinned, hshift⟩ := (process_processed h t d).shift hobl hlinks
  rw [(process_processed h s d).unique hshift]
  exact ⟨rfl, rfl, rfl⟩

end Link

namespace Attachment

variable {h : Host} {s t : Session} {k : Nat}

/-- A run over directives is the same run from every session, with other links. -/
theorem work_shift (hobl : h.IsOblivious) (hlinks : s.links = t.links + k)
    (ds : List Directive) :
    (work h s ds).outcomes = (work h t ds).outcomes ∧
      (work h s ds).trace.calls = (work h t ds).trace.calls.map (Call.shift k) := by
  induction ds generalizing s t with
  | nil => exact ⟨rfl, rfl⟩
  | cons d ds ih =>
    obtain ⟨hresult, hnext, htrace⟩ := Link.process_shift hobl hlinks d
    obtain ⟨houtcomes, hcalls⟩ := ih hnext
    refine ⟨?_, ?_⟩
    · rw [outcomes_work_cons, outcomes_work_cons, hresult, houtcomes]
    · rw [calls_work_cons, calls_work_cons, hcalls, htrace, Trace.calls_map_shift,
        List.map_append]

theorem calls_work_append_shift (hobl : h.IsOblivious) (ds es : List Directive) :
    (work h .fresh (ds ++ es)).trace.calls =
      (work h .fresh ds).trace.calls ++
        (work h .fresh es).trace.calls.map (Call.shift (work h .fresh ds).session.links) := by
  have hlinks : (work h .fresh ds).session.links =
      Session.fresh.links + (work h .fresh ds).session.links := (Nat.zero_add _).symm
  rw [calls_work_append, (work_shift hobl hlinks es).2]

/-- Each directive comes to what it comes to alone. -/
theorem outcomes_eq_flatMap (hobl : h.IsOblivious) (ds : List Directive) :
    (attachAll h ds).report.outcomes =
      ds.flatMap fun d => (attachAll h [d]).report.outcomes := by
  have hwork : ∀ s, (work h s ds).outcomes = ds.flatMap fun d => (work h .fresh [d]).outcomes := by
    induction ds with
    | nil => exact fun _ => rfl
    | cons d ds ih =>
      intro s
      have hlinks : s.links = Session.fresh.links + s.links := (Nat.zero_add _).symm
      rw [outcomes_work_cons, ih, (Link.process_shift hobl hlinks d).1]
      rfl
  simp only [outcomes_attachAll]
  exact hwork .fresh

end Attachment

theorem RunReport.result_isOk_iff (r : RunReport) :
    (∃ summary, r.result = .ok summary) ↔ 0 < r.summary.succeeded := by
  rw [← RunSummary.isSuccess_iff]
  unfold RunReport.result
  split <;> simp [*]

theorem RunReport.result_isOk_iff_exists (r : RunReport) :
    (∃ summary, r.result = .ok summary) ↔ ∃ o ∈ r.outcomes, o.2 = none := by
  rw [r.result_isOk_iff, RunReport.summary, List.countP_pos_iff]
  simp only [Option.isNone_iff_eq_none]

/-- What a run over directives has to do with runs over some of them. -/
structure Isolated (h : Host) : Prop where
  /-- The calls over two lists are those over the one and then those over the other, whose links
  come after those that the first made. The last call of a run gives the module up. -/
  calls : ∀ ds es, ∃ last, (last = .release ∨ last = .close) ∧
    (attachAll h (ds ++ es)).trace.calls =
      (attachAll h ds).trace.calls.dropLast ++
        (attachAll h es).trace.calls.dropLast.map
          (Call.shift ((attachAll h ds).trace.calls.countP (Call.makesLink h))) ++ [last]
  /-- Each directive has the outcome that it has alone. -/
  outcomes : ∀ ds, (attachAll h ds).report.outcomes =
    ds.flatMap fun d => (attachAll h [d]).report.outcomes
  succeeded : ∀ ds es, (attachAll h (ds ++ es)).report.summary.succeeded =
    (attachAll h ds).report.summary.succeeded + (attachAll h es).report.summary.succeeded
  result : ∀ ds, (∃ summary, (attachAll h ds).report.result = .ok summary) ↔
    ∃ d ∈ ds, ∃ summary, (attachAll h [d]).report.result = .ok summary
  permuted : ∀ ds es, ds.Perm es →
    (attachAll h ds).report.outcomes.Perm (attachAll h es).report.outcomes ∧
      (attachAll h ds).report.summary = (attachAll h es).report.summary

namespace Attachment

variable {h : Host}

theorem calls_append_shift (hobl : h.IsOblivious) (ds es : List Directive) :
    (attachAll h (ds ++ es)).trace.calls =
      (attachAll h ds).trace.calls.dropLast ++
        (attachAll h es).trace.calls.dropLast.map
          (Call.shift ((attachAll h ds).trace.calls.countP (Call.makesLink h))) ++
        [lastCall (attachAll h (ds ++ es)).report] := by
  rw [dropLast_calls_attachAll, dropLast_calls_attachAll, countP_makesLink_attachAll,
    ← calls_work_append_shift hobl, ← dropLast_calls_attachAll, calls_attachAll,
    List.dropLast_concat]

theorem succeeded_append (hobl : h.IsOblivious) (ds es : List Directive) :
    (attachAll h (ds ++ es)).report.summary.succeeded =
      (attachAll h ds).report.summary.succeeded +
        (attachAll h es).report.summary.succeeded := by
  simp only [RunReport.summary]
  rw [outcomes_eq_flatMap hobl, List.flatMap_append, List.countP_append,
    ← outcomes_eq_flatMap hobl, ← outcomes_eq_flatMap hobl]

theorem result_isOk_iff_alone (hobl : h.IsOblivious) (ds : List Directive) :
    (∃ summary, (attachAll h ds).report.result = .ok summary) ↔
      ∃ d ∈ ds, ∃ summary, (attachAll h [d]).report.result = .ok summary := by
  simp only [RunReport.result_isOk_iff_exists]
  rw [outcomes_eq_flatMap hobl]
  constructor
  · rintro ⟨o, ho, hnone⟩
    obtain ⟨d, hd, hod⟩ := List.mem_flatMap.mp ho
    exact ⟨d, hd, o, hod, hnone⟩
  · rintro ⟨d, hd, o, hod, hnone⟩
    exact ⟨o, List.mem_flatMap.mpr ⟨d, hd, hod⟩, hnone⟩

theorem outcomes_perm (hobl : h.IsOblivious) {ds es : List Directive} (hperm : ds.Perm es) :
    (attachAll h ds).report.outcomes.Perm (attachAll h es).report.outcomes := by
  rw [outcomes_eq_flatMap hobl ds, outcomes_eq_flatMap hobl es]
  exact hperm.flatMap_right _

end Attachment

theorem RunReport.summary_eq_of_perm {r q : RunReport} (hperm : r.outcomes.Perm q.outcomes) :
    r.summary = q.summary := by
  unfold RunReport.summary
  rw [hperm.length_eq, hperm.countP_eq]

open Attachment in
/-- Without exclusive pins no directive can tell which others there are: it comes to what it comes
to alone, by the calls that it makes alone, whatever fails around it. -/
theorem attachAll_isolated (s : Script) (hpins : s.exclusivePins = false) : Isolated s.host := by
  have hobl := Script.isOblivious_host hpins
  refine ⟨?_, outcomes_eq_flatMap hobl, succeeded_append hobl, result_isOk_iff_alone hobl, ?_⟩
  · intro ds es
    exact ⟨_, lastCall_cases _, calls_append_shift hobl ds es⟩
  · intro ds es hperm
    have houtcomes := outcomes_perm hobl hperm
    exact ⟨houtcomes, RunReport.summary_eq_of_perm houtcomes⟩

/-- A module that refuses one symbol and one path treats two directives alike in either order. -/
theorem attachAll_isolated_swap :
    let s : Script :=
      { programs := [("count", "kprobe/vfs_read")]
        loadFailure := none
        attachFailure := fun hook =>
          if hook = .kprobe "gone" then some (.ofMessage "No such file or directory") else none
        pinFailure := fun path =>
          if path = "/p/full" then some (.ofMessage "No space left on device") else none
        exclusivePins := false }
    let lost : Directive := ⟨1, .ofString "/p/a", "count", .kprobe, "gone"⟩
    let kept : Directive := ⟨2, .ofString "/p/a", "count", .kprobe, "vfs_read"⟩
    s.exclusivePins = false ∧ [lost, kept].Perm [kept, lost] ∧
      (attachAll s.host [lost, kept]).report.outcomes.Perm
        (attachAll s.host [kept, lost]).report.outcomes ∧
      (attachAll s.host [lost, kept]).report.summary =
        (attachAll s.host [kept, lost]).report.summary := by
  intro s lost kept
  have hperm : [lost, kept].Perm [kept, lost] := .swap kept lost []
  exact ⟨rfl, hperm, (attachAll_isolated s rfl).permuted _ _ hperm⟩

end ProbeLoader
