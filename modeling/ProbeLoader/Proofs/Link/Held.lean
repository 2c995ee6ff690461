import ProbeLoader.Host.Script
import ProbeLoader.Proofs.Link.Operations
import Mathlib.Data.List.Nodup

/-!
# Links over sequences of operations

A link goes one way only, in whatever order operations come. Attaching makes it and puts it into
the table; persisting takes it out and settles it, once; and if it is still in the table when that
is given up, it is detached. A second attempt to persist it finds nothing there and makes no call.
What carries the induction is that the links in the table are those that were made and not yet
persisted.
-/

namespace ProbeLoader

namespace LinkTable

/-- An operation of a sequence and what it came to. -/
structure Step where
  operation : Operation
  answer : Answer
  trace : Trace
  deriving DecidableEq, Repr

/-- The link that a step makes. -/
def Step.made? (s : Step) : Option LinkId :=
  match s.answer with
  | .attached link => some link
  | _ => none

/-- What a step does to a link that it finds in the table and persists. -/
inductive Step.Spends (link : LinkId) : Step → List Call → Prop where
  | kept {path : Path} {trace : Trace} :
      Spends link ⟨.persist link path, .persisted, trace⟩ [.pin link path, .disconnect link]
  | lost {path : Path} {e : DirectiveError} {trace : Trace} :
      Spends link ⟨.persist link path, .failed e, trace⟩ [.pin link path, .detach link]

def IsMade (steps : List Step) (link : LinkId) : Prop :=
  ∃ s ∈ steps, s.made? = some link

def IsSpent (steps : List Step) (link : LinkId) : Prop :=
  ∃ s ∈ steps, ∃ calls, s.Spends link calls

def stepOf (h : Host) (t : LinkTable) (op : Operation) : Step :=
  ⟨op, (t.perform h op).1, (t.perform h op).2.2⟩

/-- Operations together with what they come to, one after the other. -/
def history (h : Host) (t : LinkTable) (ops : List Operation) : List Step :=
  List.zipWith (fun op answer => ⟨op, answer.1, answer.2⟩) ops (performAll h t ops).1

def callsOf (steps : List Step) : List Call := steps.flatMap fun s => s.trace.calls

/-- The calls of a sequence of operations, up to giving the table up. -/
def allCalls (h : Host) (ops : List Operation) : List Call :=
  callsOf (history h .empty ops) ++ (performAll h .empty ops).2.giveUp.calls

/-- All that ever happens to a link that was made: what persisting it does, or it is detached at
the end. -/
inductive IsSettled (steps : List Step) (link : LinkId) : List Call → Prop where
  | spent {s : Step} {calls : List Call} : s ∈ steps → s.Spends link calls →
      IsSettled steps link calls
  | left : ¬ IsSpent steps link → IsSettled steps link [.detach link]

/-- What one operation does to links after others. -/
structure LinksGuarded (h : Host) (t : LinkTable) (before : List Step) (op : Operation) : Prop where
  held : ∀ link, link ∈ t.held ↔ IsMade before link ∧ ¬ IsSpent before link
  noLink : ∀ link path, op = .persist link path → ¬ IsMade before link ∨ IsSpent before link →
    t.perform h op = (.noLink, t, [])
  /-- Resolving and attaching are about no link, persisting is about its own. -/
  apart : ∀ c ∈ (t.perform h op).2.2.calls, c.link? = op.link?
  pin : ∀ link path, .pin link path ∈ (t.perform h op).2.2.calls → op = .persist link path
  failed : ∀ e, (t.perform h op).1 = .failed e → (t.perform h op).2.1 = ⟨t.session, t.heldAfter op⟩

/-- How a sequence of operations deals with links. -/
structure LinksSettled (h : Host) (ops : List Operation) : Prop where
  /-- Links are made one by one and numbered in that order. -/
  made : (history h .empty ops).filterMap Step.made? =
    List.range' 1 (performAll h .empty ops).2.session.links
  settled : ∀ link calls, IsMade (history h .empty ops) link →
    (about link (allCalls h ops) = calls ↔ IsSettled (history h .empty ops) link calls)
  unmade : ∀ link, ¬ IsMade (history h .empty ops) link → about link (allCalls h ops) = []
  guarded : ∀ before op after, ops = before ++ op :: after →
    (history h .empty ops)[before.length]? = some (stepOf h (performAll h .empty before).2 op) ∧
      LinksGuarded h (performAll h .empty before).2 (history h .empty before) op

section

variable {h : Host} {steps : List Step} {s : Step} {link : LinkId} {calls : List Call}

theorem Step.Spends.made?_eq (hs : s.Spends link calls) : s.made? = none := by
  cases hs <;> rfl

theorem Step.Spends.unique {other : LinkId} {others : List Call} (hs : s.Spends link calls)
    (hother : s.Spends other others) : other = link ∧ others = calls := by
  cases hs <;> cases hother <;> exact ⟨rfl, rfl⟩

theorem isMade_concat : IsMade (steps ++ [s]) link ↔ IsMade steps link ∨ s.made? = some link := by
  simp [IsMade, or_and_right, exists_or]

theorem isSpent_concat :
    IsSpent (steps ++ [s]) link ↔ IsSpent steps link ∨ ∃ calls, s.Spends link calls := by
  simp [IsSpent, or_and_right, exists_or]

theorem isMade_iff_mem : IsMade steps link ↔ link ∈ steps.filterMap Step.made? :=
  List.mem_filterMap.symm

theorem about_callsOf_concat (steps : List Step) (s : Step) (link : LinkId) :
    about link (callsOf (steps ++ [s])) =
      about link (callsOf steps) ++ about link s.trace.calls := by
  simp [callsOf, about_append]

theorem history_append (h : Host) (t : LinkTable) (ops rest : List Operation) :
    history h t (ops ++ rest) =
      history h t ops ++ history h (performAll h t ops).2 rest := by
  induction ops generalizing t with
  | nil => rfl
  | cons op ops ih => exact congrArg (List.cons (stepOf h t op)) (ih _)

theorem length_history (h : Host) (t : LinkTable) (ops : List Operation) :
    (history h t ops).length = ops.length := by
  induction ops generalizing t with
  | nil => rfl
  | cons op ops ih => exact congrArg (· + 1) (ih _)

end

/-- The steps that persist links are all that happens to those links while the table is used. -/
structure SpentOnce (steps : List Step) : Prop where
  unspent : ∀ link, ¬ IsSpent steps link → about link (callsOf steps) = []
  spent : ∀ link calls, ∀ s ∈ steps, s.Spends link calls → about link (callsOf steps) = calls

theorem isSpent_concat_of_idle {steps : List Step} {s : Step}
    (hspends : ∀ link calls, ¬ s.Spends link calls) (link : LinkId) :
    IsSpent (steps ++ [s]) link ↔ IsSpent steps link := by
  simp [isSpent_concat, hspends]

theorem SpentOnce.idle {steps : List Step} {s : Step} (ho : SpentOnce steps)
    (hspends : ∀ link calls, ¬ s.Spends link calls)
    (habout : ∀ link, about link s.trace.calls = []) : SpentOnce (steps ++ [s]) := by
  have haboutEq (link : LinkId) :
      about link (callsOf (steps ++ [s])) = about link (callsOf steps) := by
    rw [about_callsOf_concat, habout, List.append_nil]
  constructor
  · intro link
    rw [isSpent_concat_of_idle hspends, haboutEq]
    exact ho.unspent link
  · intro link calls u hu hus
    rw [haboutEq]
    rcases List.mem_append.mp hu with hu | hu
    · exact ho.spent link calls u hu hus
    · obtain rfl := List.mem_singleton.mp hu
      exact absurd hus (hspends link calls)

theorem isSpent_concat_of_spends {steps : List Step} {s : Step} {link : LinkId}
    {calls : List Call} (hspends : s.Spends link calls) (other : LinkId) :
    IsSpent (steps ++ [s]) other ↔ IsSpent steps other ∨ other = link := by
  rw [isSpent_concat]
  constructor
  · rintro (hspent | ⟨others, hother⟩)
    · exact Or.inl hspent
    · exact Or.inr (hspends.unique hother).1
  · rintro (hspent | rfl)
    · exact Or.inl hspent
    · exact Or.inr ⟨calls, hspends⟩

theorem SpentOnce.spend {steps : List Step} {s : Step} (ho : SpentOnce steps) {link : LinkId}
    {calls : List Call} (hunspent : ¬ IsSpent steps link) (hspends : s.Spends link calls)
    (hcalls : about link s.trace.calls = calls)
    (habout : ∀ other, other ≠ link → about other s.trace.calls = []) :
    SpentOnce (steps ++ [s]) := by
  constructor
  · intro other hother
    rw [isSpent_concat_of_spends hspends, not_or] at hother
    rw [about_callsOf_concat, ho.unspent other hother.1, habout other hother.2, List.append_nil]
  · intro other others u hu hus
    rw [about_callsOf_concat]
    rcases List.mem_append.mp hu with hu | hu
    · -- The link of this step was not spent before, so an earlier step spent another one.
      have hother : other ≠ link := by
        rintro rfl
        exact hunspent ⟨u, hu, others, hus⟩
      rw [ho.spent other others u hu hus, habout other hother, List.append_nil]
    · obtain rfl := List.mem_singleton.mp hu
      obtain ⟨rfl, rfl⟩ := hspends.unique hus
      rw [ho.unspent other hunspent, hcalls, List.nil_append]

/-- What is known of links after steps that led to a table. -/
structure Tracked (steps : List Step) (t : LinkTable) : Prop where
  once : SpentOnce steps
  made : steps.filterMap Step.made? = List.range' 1 t.session.links
  nodup : t.held.Nodup
  held : ∀ link, link ∈ t.held ↔ IsMade steps link ∧ ¬ IsSpent steps link
  isMade : ∀ link, IsSpent steps link → IsMade steps link

namespace Tracked

variable {steps : List Step} {t : LinkTable} {s : Step}

theorem empty : Tracked [] .empty where
  once := ⟨fun _ _ => rfl, fun _ _ _ hs => absurd hs List.not_mem_nil⟩
  made := rfl
  nodup := List.nodup_nil
  held link := by simp [LinkTable.empty, IsMade]
  isMade link hspent := by simp [IsSpent] at hspent

theorem not_isMade_next (ht : Tracked steps t) : ¬ IsMade steps (t.session.links + 1) := by
  rw [isMade_iff_mem, ht.made, List.mem_range'_1, Nat.add_comm]
  exact fun hnext => Nat.lt_irrefl _ hnext.2

/-- A step that finds no link in the table and makes none leaves everything as it was. -/
theorem idle (ht : Tracked steps t) (hmade : s.made? = none)
    (hspends : ∀ link calls, ¬ s.Spends link calls)
    (habout : ∀ link, about link s.trace.calls = []) : Tracked (steps ++ [s]) t := by
  have hmadeIff (link : LinkId) : IsMade (steps ++ [s]) link ↔ IsMade steps link := by
    simp [isMade_concat, hmade]
  refine ⟨ht.once.idle hspends habout, ?_, ht.nodup, ?_, ?_⟩
  · simpa [hmade] using ht.made
  · intro link
    rw [hmadeIff, isSpent_concat_of_idle hspends]
    exact ht.held link
  · intro link
    rw [hmadeIff, isSpent_concat_of_idle hspends]
    exact ht.isMade link

theorem make (ht : Tracked steps t) (hmade : s.made? = some (t.session.links + 1))
    (hspends : ∀ link calls, ¬ s.Spends link calls)
    (habout : ∀ link, about link s.trace.calls = []) :
    Tracked (steps ++ [s]) ⟨{ t.session with links := t.session.links + 1 },
      t.held ++ [t.session.links + 1]⟩ := by
  have hnew := ht.not_isMade_next
  refine ⟨ht.once.idle hspends habout, ?_, ?_, ?_, ?_⟩
  · rw [List.filterMap_append, ht.made, List.range'_1_concat]
    simp [hmade, Nat.add_comm]
  · apply List.nodup_append.mpr
    refine ⟨ht.nodup, List.nodup_singleton _, ?_⟩
    rintro link hheld other hother rfl
    obtain rfl := List.mem_singleton.mp hother
    exact hnew ((ht.held _).mp hheld).1
  · intro link
    rw [List.mem_append, List.mem_singleton, isMade_concat, isSpent_concat_of_idle hspends,
      ht.held, hmade, Option.some_inj]
    constructor
    · rintro (⟨hlink, hspent⟩ | rfl)
      · exact ⟨Or.inl hlink, hspent⟩
      · exact ⟨Or.inr rfl, fun hspent => hnew (ht.isMade _ hspent)⟩
    · rintro ⟨hlink | rfl, hspent⟩
      · exact Or.inl ⟨hlink, hspent⟩
      · exact Or.inr rfl
  · intro link hspent
    apply isMade_concat.mpr
    exact Or.inl (ht.isMade link ((isSpent_concat_of_idle hspends link).mp hspent))

/-- A step that persists a link takes it out of the table and is all that happens to it. -/
theorem spend (ht : Tracked steps t) {session : Session} {link : LinkId} {calls : List Call}
    (hheld : link ∈ t.held) (hspends : s.Spends link calls)
    (hlinks : session.links = t.session.links) (hcalls : about link s.trace.calls = calls)
    (habout : ∀ other, other ≠ link → about other s.trace.calls = []) :
    Tracked (steps ++ [s]) ⟨session, t.held.erase link⟩ := by
  obtain ⟨hmade, hunspent⟩ := (ht.held link).mp hheld
  have hmadeIff (other : LinkId) : IsMade (steps ++ [s]) other ↔ IsMade steps other := by
    simp [isMade_concat, hspends.made?_eq]
  refine ⟨ht.once.spend hunspent hspends hcalls habout, ?_, ht.nodup.erase link, ?_, ?_⟩
  · simpa [hspends.made?_eq, hlinks] using ht.made
  · intro other
    rw [ht.nodup.mem_erase_iff, ht.held, hmadeIff, isSpent_concat_of_spends hspends, not_or]
    exact ⟨fun ⟨hne, hlink, hspent⟩ => ⟨hlink, hspent, hne⟩,
      fun ⟨hlink, hspent, hne⟩ => ⟨hne, hlink, hspent⟩⟩
  · intro other hspent
    rw [hmadeIff]
    rcases (isSpent_concat_of_spends hspends other).mp hspent with hspent | rfl
    · exact ht.isMade other hspent
    · exact hmade

/-- Whatever an operation comes to, it keeps links tracked. -/
theorem step {h : Host} {op : Operation} {r : Answer × LinkTable × Trace} (ht : Tracked steps t)
    (hr : Performed h t op r) : Tracked (steps ++ [⟨op, r.1, r.2.2⟩]) r.2.1 := by
  have habout (link : LinkId) (hlink : op.link? ≠ some link) : about link r.2.2.calls = [] :=
    hr.about_eq_nil hlink
  cases hr with
  | resolved => exact ht.idle rfl nofun fun link => habout link nofun
  | unresolved => exact ht.idle rfl nofun fun link => habout link nofun
  | invalid => exact ht.idle rfl nofun fun link => habout link nofun
  | refused => exact ht.idle rfl nofun fun link => habout link nofun
  | attached => exact ht.make rfl nofun fun link => habout link nofun
  | noLink => exact ht.idle rfl nofun fun _ => rfl
  | @unpinned link path chain hheld _ =>
    refine ht.spend hheld .lost ?_ ?_ ?_
    · rfl
    · simp [about, Call.link?]
    · intro other hother
      exact habout other fun heq => hother (Option.some.inj heq).symm
  | @persisted link path hheld _ =>
    refine ht.spend hheld .kept ?_ ?_ ?_
    · rfl
    · simp [about, Call.link?]
    · intro other hother
      exact habout other fun heq => hother (Option.some.inj heq).symm

end Tracked

theorem Tracked.run {steps : List Step} {t : LinkTable} (ht : Tracked steps t) (h : Host)
    (ops : List Operation) : Tracked (steps ++ history h t ops) (performAll h t ops).2 := by
  -- The invariant is about all steps so far, so they vary along with the table.
  induction ops generalizing steps t with
  | nil => simpa [history, performAll] using ht
  | cons op ops ih =>
    have hrest := ih (ht.step (perform_performed h t op))
    rw [List.append_assoc] at hrest
    exact hrest

/-- Links are tracked over every sequence of operations. -/
theorem tracked_history (h : Host) (ops : List Operation) :
    Tracked (history h .empty ops) (performAll h .empty ops).2 :=
  Tracked.empty.run h ops

theorem about_giveUp {t : LinkTable} (hnodup : t.held.Nodup) (link : LinkId) :
    about link t.giveUp.calls = if link ∈ t.held then [.detach link] else [] := by
  have hcalls : t.giveUp.calls = t.held.map .detach ++ [.close] := by
    unfold giveUp
    rw [Trace.calls_append]
    congr 1
    induction t.held with
    | nil => rfl
    | cons link held ih => exact congrArg (List.cons (Call.detach link)) ih
  have hfilter : about link (t.held.map .detach) = (t.held.filter (· == link)).map .detach :=
    List.filter_map
  rw [hcalls, about_append, hfilter, List.filter_beq]
  split
  next hheld => simp [List.count_eq_one_of_mem hnodup hheld, about, Call.link?]
  next hheld => simp [List.count_eq_zero_of_not_mem hheld, about, Call.link?]

variable {h : Host} {ops : List Operation} {link : LinkId}

theorem about_allCalls (h : Host) (ops : List Operation) (link : LinkId) :
    about link (allCalls h ops) = about link (callsOf (history h .empty ops)) ++
      if link ∈ (performAll h .empty ops).2.held then [.detach link] else [] := by
  rw [allCalls, about_append, about_giveUp (tracked_history h ops).nodup]

theorem IsSettled.about_eq {calls : List Call} (hmade : IsMade (history h .empty ops) link)
    (hsettled : IsSettled (history h .empty ops) link calls) :
    about link (allCalls h ops) = calls := by
  have ht := tracked_history h ops
  rw [about_allCalls]
  cases hsettled with
  | @spent s _ hs hspends =>
    have hheld : link ∉ (performAll h .empty ops).2.held := by
      rw [ht.held]
      exact fun hlink => hlink.2 ⟨s, hs, calls, hspends⟩
    rw [ht.once.spent link calls s hs hspends, if_neg hheld, List.append_nil]
  | left hunspent =>
    have hheld := (ht.held link).mpr ⟨hmade, hunspent⟩
    rw [ht.once.unspent link hunspent, if_pos hheld, List.nil_append]

theorem exists_isSettled (steps : List Step) (link : LinkId) :
    ∃ calls, IsSettled steps link calls := by
  by_cases hspent : IsSpent steps link
  · obtain ⟨s, hs, calls, hspends⟩ := hspent
    exact ⟨calls, .spent hs hspends⟩
  · exact ⟨[.detach link], .left hspent⟩

theorem about_allCalls_of_unmade (hunmade : ¬ IsMade (history h .empty ops) link) :
    about link (allCalls h ops) = [] := by
  have ht := tracked_history h ops
  have hunspent : ¬ IsSpent (history h .empty ops) link := fun hspent =>
    hunmade (ht.isMade link hspent)
  have hheld : link ∉ (performAll h .empty ops).2.held := fun hheld =>
    hunmade ((ht.held link).mp hheld).1
  rw [about_allCalls, ht.once.unspent link hunspent, if_neg hheld, List.append_nil]

theorem linksGuarded_after (h : Host) (before : List Operation) (op : Operation) :
    LinksGuarded h (performAll h .empty before).2 (history h .empty before) op := by
  have ht := tracked_history h before
  have hr := perform_performed h (performAll h .empty before).2 op
  refine ⟨ht.held, ?_, fun c hc => hr.link?_of_mem hc, ?_, fun e he => hr.table_of_failed he⟩
  · rintro link path rfl hgone
    apply hr.eq_noLink
    rw [ht.held]
    rintro ⟨hmade, hunspent⟩
    rcases hgone with hunmade | hspent
    · exact hunmade hmade
    · exact hunspent hspent
  · intro link path hpin
    exact hr.eq_persist_of_pin hpin

example :
    let s : Script :=
      { programs := [("count", "kprobe/vfs_read")]
        loadFailure := none
        attachFailure := fun _ => none
        pinFailure := fun path => if path = "/p/b" then some (.ofMessage "File exists") else none
        exclusivePins := false }
    let calls := allCalls s.host
      [.attach ⟨"count"⟩ .kprobe "a", .attach ⟨"count"⟩ .kprobe "b", .attach ⟨"count"⟩ .kprobe "c",
        .persist 2 (.ofString "/p/b"), .persist 1 (.ofString "/p/a"), .persist 2 (.ofString "/p/c")]
    about 1 calls = [.pin 1 (.ofString "/p/a"), .disconnect 1] ∧
      about 2 calls = [.pin 2 (.ofString "/p/b"), .detach 2] ∧ about 3 calls = [.detach 3] := by
  decide +kernel

end LinkTable

end ProbeLoader
