import ProbeLoader.Proofs.Link.Watch

/-!
# The life of a link

Every link that a run of directives makes is pinned at once, at the path of the directive it was
made for, and then it is either disconnected or detached, whichever way the pin went. Nothing else
ever happens to it, so no link is left over when the run ends.
-/

namespace ProbeLoader

/-- The link that a call is about. -/
def Call.link? : Call → Option LinkId
  | .pin link _ => some link
  | .disconnect link => some link
  | .detach link => some link
  | _ => none

/-- The directive that is in hand after calls, each directive beginning with a look-up. -/
def inHand? (ds : List Directive) (calls : List Call) : Option Directive :=
  match calls.countP Call.isFind with
  | 0 => none
  | n + 1 => ds[n]?

def about (link : LinkId) (calls : List Call) : List Call :=
  calls.filter fun c => c.link? == some link

/-- All that happens to a link: it is pinned, and then it is disconnected or detached. -/
def IsLife (link : LinkId) (calls : List Call) : Prop :=
  ∃ path, calls = [.pin link path, .disconnect link] ∨ calls = [.pin link path, .detach link]

/-- What a link that was just made comes to at a path, after the pin. -/
def settling (h : Host) (s : Session) (path : Path) : Call :=
  if h.pinFailure s.pinned path = none then .disconnect (s.links + 1) else .detach (s.links + 1)

/-- How the calls of a run over `ds` deal with links. -/
structure LinksKept (h : Host) (ds : List Directive) (calls : List Call) : Prop where
  /-- A look-up begins the next directive. -/
  begun : ∀ {before name rest}, calls = before ++ .find name :: rest →
    ∃ d, inHand? ds (before ++ [.find name]) = some d ∧ d.programName = name
  /-- Every directive is begun. -/
  complete : calls.countP Call.isFind = ds.length
  /-- A link that was made is pinned by the next call for the directive in hand, and the call after
  that disconnects it if the pin succeeded and detaches it if not. No other call is about it. -/
  attached : ∀ {before p hook rest s}, calls = before ++ .attach p hook :: rest →
    h.attachFailure p hook = none → s = Session.afterAll h .fresh before →
    ∃ d after, inHand? ds before = some d ∧
      rest = .pin (s.links + 1) d.pinPath :: settling h s d.pinPath :: after ∧
      about (s.links + 1) calls = [.pin (s.links + 1) d.pinPath, settling h s d.pinPath]
  /-- Where no link was made, none is pinned. -/
  refused : ∀ {before p hook rest}, calls = before ++ .attach p hook :: rest →
    h.attachFailure p hook ≠ none → ∀ link path, rest.head? ≠ some (.pin link path)
  /-- A link that was made is pinned and settled. -/
  life : ∀ link, 0 < link → link ≤ (Session.afterAll h .fresh calls).links →
    IsLife link (about link calls)
  /-- No call is about a link that was not made. -/
  unmade : ∀ link, link = 0 ∨ (Session.afterAll h .fresh calls).links < link →
    about link calls = []

@[simp] theorem about_nil (link : LinkId) : about link [] = [] := rfl

@[simp] theorem about_cons_attach (link : LinkId) (p : ProgramRef) (hook : Hook)
    (cs : List Call) : about link (.attach p hook :: cs) = about link cs := rfl

@[simp] theorem about_cons_pin (link l : LinkId) (path : Path) (cs : List Call) :
    about link (.pin l path :: cs) =
      if l = link then .pin l path :: about link cs else about link cs := by
  simp [about, List.filter_cons, Call.link?]

@[simp] theorem about_cons_disconnect (link l : LinkId) (cs : List Call) :
    about link (.disconnect l :: cs) =
      if l = link then .disconnect l :: about link cs else about link cs := by
  simp [about, List.filter_cons, Call.link?]

@[simp] theorem about_cons_detach (link l : LinkId) (cs : List Call) :
    about link (.detach l :: cs) =
      if l = link then .detach l :: about link cs else about link cs := by
  simp [about, List.filter_cons, Call.link?]

@[simp] theorem about_append (link : LinkId) (cs es : List Call) :
    about link (cs ++ es) = about link cs ++ about link es :=
  List.filter_append cs es

@[simp] theorem about_lookups (link : LinkId) (h : Host) (name : String) :
    about link (h.lookups name) = [] := by
  apply List.filter_eq_nil_iff.mpr
  intro c hc
  rcases Link.mem_lookups hc with rfl | rfl | rfl <;> simp [Call.link?]

/-- A directive makes no link and is about none, or makes the next one and is about that alone. -/
theorem about_process (h : Host) (s : Session) (d : Directive) :
    ((Link.process h s d).session.links = s.links ∧
        ∀ link, about link (Link.process h s d).trace.calls = []) ∨
      ((Link.process h s d).session.links = s.links + 1 ∧
        (∀ link, link ≠ s.links + 1 → about link (Link.process h s d).trace.calls = []) ∧
        IsLife (s.links + 1) (about (s.links + 1) (Link.process h s d).trace.calls)) := by
  have hp := Link.process_processed h s d
  generalize Link.process h s d = o at hp ⊢
  cases hp with
  | unknown => exact Or.inl ⟨rfl, fun link => by simp⟩
  | invalid => exact Or.inl ⟨rfl, fun link => by simp⟩
  | refused => exact Or.inl ⟨rfl, fun link => by simp⟩
  | unpinned =>
    refine Or.inr ⟨rfl, fun link hne => ?_, d.pinPath, Or.inr ?_⟩
    · simp [hne.symm]
    · simp
  | pinned =>
    refine Or.inr ⟨rfl, fun link hne => ?_, d.pinPath, Or.inl ?_⟩
    · simp [hne.symm]
    · simp

theorem about_processAll (h : Host) (total index : Nat) (s : Session) (ds : List Directive) :
    s.links ≤ (Attachment.processAll h total index s ds).session.links ∧
      ∀ link,
        (link ≤ s.links ∨ (Attachment.processAll h total index s ds).session.links < link →
          about link (Attachment.processAll h total index s ds).trace.calls = []) ∧
        (s.links < link → link ≤ (Attachment.processAll h total index s ds).session.links →
          IsLife link (about link (Attachment.processAll h total index s ds).trace.calls)) := by
  induction ds generalizing index s with
  | nil =>
    refine ⟨Nat.le_refl _, fun link => ⟨fun _ => rfl, fun hlt hle => ?_⟩⟩
    exact absurd (Nat.lt_of_lt_of_le hlt hle) (Nat.lt_irrefl _)
  | cons d ds ih =>
    obtain ⟨hmono, hrest⟩ := ih (index + 1) (Link.process h s d).session
    rw [Attachment.calls_processAll_cons, Attachment.session_processAll_cons]
    rcases about_process h s d with ⟨hlinks, hnone⟩ | ⟨hlinks, hother, hlife⟩
    · rw [hlinks] at hmono hrest
      refine ⟨hmono, fun link => ?_⟩
      rw [about_append, hnone, List.nil_append]
      exact hrest link
    · rw [hlinks] at hmono hrest
      refine ⟨by omega, fun link => ⟨fun hout => ?_, fun hlt hle => ?_⟩⟩
      · rw [about_append, hother link (by omega), (hrest link).1 (by omega), List.nil_append]
      · rw [about_append]
        by_cases hnew : link = s.links + 1
        · subst hnew
          rw [(hrest _).1 (by omega), List.append_nil]
          exact hlife
        · rw [hother link hnew, List.nil_append]
          exact (hrest link).2 (by omega) hle

theorem IsLife.eq_of_mem {h : Host} {s : Session} {path : Path} {cs : List Call}
    (hlife : IsLife (s.links + 1) cs) (hpin : .pin (s.links + 1) path ∈ cs)
    (hsettle : settling h s path ∈ cs) :
    cs = [.pin (s.links + 1) path, settling h s path] := by
  unfold settling at hsettle ⊢
  obtain ⟨path', rfl | rfl⟩ := hlife
  · split at hsettle <;> simp_all
  · split at hsettle <;> simp_all

namespace Watch

variable {h : Host} {ds : List Directive} {u : Watch} {before rest : List Call}

theorem inHand?_eq {n : Nat} (hn : before.countP Call.isFind = n + 1) :
    inHand? ds before = ds[n]? := by
  unfold inHand?
  rw [hn]

theorem Run.find_inHand {name : String}
    (hrun : Run h ds ⟨.fresh, 0, .nothing⟩ (before ++ .find name :: rest) u) :
    ∃ d, inHand? ds (before ++ [.find name]) = some d ∧ d.programName = name := by
  obtain ⟨v, hbefore, hrest⟩ := hrun.split
  have hbegun := hbefore.begun_eq
  cases hrest with
  | cons hc _ =>
    cases hc with
    | @find s n d hd =>
      have hcount : (before ++ [Call.find d.programName]).countP Call.isFind = n + 1 := by
        rw [List.countP_append]
        change before.countP Call.isFind + 1 = n + 1
        simp only at hbegun
        omega
      exact ⟨d, (inHand?_eq hcount).trans hd, rfl⟩

theorem Run.disconnect_due {s : Session} {n : Nat} {cs : List Call}
    (hrun : Run h ds ⟨s, n, .disconnect⟩ cs u) (hdue : u.due = .nothing) :
    ∃ after, cs = .disconnect s.links :: after := by
  cases hrun with
  | nil => exact Due.noConfusion hdue
  | @cons _ _ _ _ after hc _ =>
    cases hc
    exact ⟨after, rfl⟩

theorem Run.detach_due {s : Session} {n : Nat} {cs : List Call}
    (hrun : Run h ds ⟨s, n, .detach⟩ cs u) (hdue : u.due = .nothing) :
    ∃ after, cs = .detach s.links :: after := by
  cases hrun with
  | nil => exact Due.noConfusion hdue
  | @cons _ _ _ _ after hc _ =>
    cases hc
    exact ⟨after, rfl⟩

/-- What a run does while a pin is due: it pins for the directive in hand and settles the link. -/
theorem Run.pin_due {s : Session} {n : Nat} {cs : List Call}
    (hrun : Run h ds ⟨{ s with links := s.links + 1 }, n, .pin⟩ cs u) (hdue : u.due = .nothing) :
    ∃ k d after, n = k + 1 ∧ ds[k]? = some d ∧
      cs = .pin (s.links + 1) d.pinPath :: settling h s d.pinPath :: after := by
  unfold settling
  cases hrun with
  | nil => exact Due.noConfusion hdue
  | cons hc hrest =>
    cases hc with
    | @unpinned _ k d chain hd hf =>
      obtain ⟨after, rfl⟩ := hrest.detach_due hdue
      refine ⟨k, d, after, rfl, hd, ?_⟩
      dsimp only at hf
      simp [hf]
    | @pinned _ k d hd hf =>
      obtain ⟨after, rfl⟩ := hrest.disconnect_due hdue
      refine ⟨k, d, after, rfl, hd, ?_⟩
      dsimp only at hf
      simp [hf]

theorem Run.attach_settled {p : ProgramRef} {hook : Hook}
    (hrun : Run h ds ⟨.fresh, 0, .nothing⟩ (before ++ .attach p hook :: rest) u)
    (hdue : u.due = .nothing) (hok : h.attachFailure p hook = none) {s : Session}
    (hs : s = Session.afterAll h .fresh before) :
    ∃ d after, inHand? ds before = some d ∧
      rest = .pin (s.links + 1) d.pinPath :: settling h s d.pinPath :: after := by
  obtain ⟨v, hbefore, hrest⟩ := hrun.split
  have hsession := hbefore.session_eq.trans hs.symm
  have hbegun := hbefore.begun_eq
  cases hrest with
  | cons hc hrest =>
    cases hc with
    | refused hf => exact absurd (hf.symm.trans hok) (Option.some_ne_none _)
    | attached =>
      obtain rfl := hsession
      obtain ⟨k, d, after, rfl, hd, hcalls⟩ := hrest.pin_due hdue
      rw [Nat.zero_add] at hbegun
      exact ⟨d, after, (inHand?_eq hbegun.symm).trans hd, hcalls⟩

theorem Run.no_pin_of_refused {p : ProgramRef} {hook : Hook}
    (hrun : Run h ds ⟨.fresh, 0, .nothing⟩ (before ++ .attach p hook :: rest) u)
    (hfail : h.attachFailure p hook ≠ none) (link : LinkId) (path : Path) :
    rest.head? ≠ some (.pin link path) := by
  obtain ⟨v, _, hrest⟩ := hrun.split
  cases hrest with
  | cons hc hrest =>
    cases hc with
    | attached hok => exact absurd hok hfail
    | refused =>
      cases hrest with
      | nil => simp
      | cons hnext _ => cases hnext <;> simp

end Watch

theorem mem_about {link : LinkId} {c : Call} {calls : List Call} (hc : c ∈ calls)
    (hlink : c.link? = some link) : c ∈ about link calls :=
  List.mem_filter.mpr ⟨hc, beq_iff_eq.mpr hlink⟩

theorem link?_settling (h : Host) (s : Session) (path : Path) :
    (settling h s path).link? = some (s.links + 1) := by
  unfold settling
  split <;> rfl

section

variable (h : Host) (ds : List Directive)

theorem about_attachAll (link : LinkId) : about link (attachAll h ds).trace.calls =
    about link (Attachment.processAll h ds.length 1 .fresh ds).trace.calls := by
  have hlast : about link [Attachment.lastCall (attachAll h ds).report] = [] := by
    unfold Attachment.lastCall
    split <;> rfl
  rw [Attachment.calls_attachAll, about_append, hlast, List.append_nil]

theorem life_or_unmade (link : LinkId) :
    (link = 0 ∨ (Session.afterAll h .fresh (attachAll h ds).trace.calls).links < link →
      about link (attachAll h ds).trace.calls = []) ∧
    (0 < link → link ≤ (Session.afterAll h .fresh (attachAll h ds).trace.calls).links →
      IsLife link (about link (attachAll h ds).trace.calls)) := by
  have hlinks := congrArg Session.links (Watch.run_attachAll h ds).session_eq
  obtain ⟨hout, hlife⟩ := (about_processAll h ds.length 1 .fresh ds).2 link
  rw [about_attachAll, ← hlinks]
  refine ⟨fun hor => hout ?_, hlife⟩
  rcases hor with rfl | hlt
  · exact Or.inl (Nat.le_refl _)
  · exact Or.inr hlt

theorem linksKept_attachAll : LinksKept h ds (attachAll h ds).trace.calls := by
  have hrun := Watch.run_attachAll h ds
  refine ⟨?_, ?_, ?_, ?_, fun link => (life_or_unmade h ds link).2,
    fun link => (life_or_unmade h ds link).1⟩
  · intro before name rest heq
    rw [heq] at hrun
    exact hrun.find_inHand
  · have hbegun := hrun.begun_eq
    rw [Nat.zero_add] at hbegun
    exact hbegun.symm
  · intro before p hook rest s heq hok hs
    have hrun' := hrun
    rw [heq] at hrun'
    obtain ⟨d, after, hd, hrest⟩ := hrun'.attach_settled rfl hok hs
    refine ⟨d, after, hd, hrest, ?_⟩
    have hpin : .pin (s.links + 1) d.pinPath ∈ about (s.links + 1) (attachAll h ds).trace.calls :=
      mem_about (by rw [heq, hrest]; simp) rfl
    have hsettle : settling h s d.pinPath ∈ about (s.links + 1) (attachAll h ds).trace.calls :=
      mem_about (by rw [heq, hrest]; simp) (link?_settling h s d.pinPath)
    -- The link is one that was made, as a call is about it.
    obtain ⟨hunmade, hlife⟩ := life_or_unmade h ds (s.links + 1)
    by_cases hle : s.links + 1 ≤ (Session.afterAll h .fresh (attachAll h ds).trace.calls).links
    · exact (hlife (Nat.succ_pos _) hle).eq_of_mem hpin hsettle
    · rw [hunmade (Or.inr (Nat.lt_of_not_le hle))] at hpin
      exact absurd hpin List.not_mem_nil
  · intro before p hook rest heq hfail
    rw [heq] at hrun
    exact hrun.no_pin_of_refused hfail

/-- Links are pinned, settled and never left over, whatever the host refuses: a link is made by
each attach that succeeds, the next call pins it for the directive in hand, the call after that
disconnects or detaches it, and links are in no other call. So every success of a run disconnected
one link and every directive that could not be pinned detached one. -/
theorem attachAll_links :
    LinksKept h ds (attachAll h ds).trace.calls ∧
      (attachAll h ds).trace.calls.countP Call.isDisconnect =
        (attachAll h ds).report.summary.succeeded ∧
      (attachAll h ds).trace.calls.countP Call.isDetach =
        (attachAll h ds).report.outcomes.countP fun o => o.2.any DirectiveError.isPinFailed :=
  ⟨linksKept_attachAll h ds, Attachment.countP_isDisconnect_attachAll h ds,
    Attachment.countP_isDetach_attachAll h ds⟩

end

end ProbeLoader
