import ProbeLoader.Proofs.Link.Lifecycle

/-!
# Runs in parts

A run over a list of directives is a run over its beginning and then, from the session that left
behind, one over the rest; the numbers that directives are announced with matter to nothing else.
The links of a run are counted by the calls that made them, so the link of a directive has a
number that the directives before it decide, and whatever happens to it happens while its own
directive is processed.
-/

namespace ProbeLoader

/-- Whether a call makes a link. -/
def Call.makesLink (h : Host) : Call → Bool
  | .attach p hook => (h.attachFailure p hook).isNone
  | _ => false

namespace Attachment

variable (h : Host)

/-- What processing directives comes to from a session on, whatever numbers they go by. -/
def work (s : Session) (ds : List Directive) : Progress :=
  processAll h 0 0 s ds

/-- The link that the next directive makes after others, if it makes one. -/
def nextLink (before : List Directive) : LinkId :=
  (attachAll h before).trace.calls.countP (Call.makesLink h) + 1

/-- The numbers of the directives are for the announcements only. -/
theorem processAll_numbering (total total' index index' : Nat) (s : Session)
    (ds : List Directive) :
    (processAll h total index s ds).outcomes = (processAll h total' index' s ds).outcomes ∧
      (processAll h total index s ds).session = (processAll h total' index' s ds).session ∧
      (processAll h total index s ds).trace.calls =
        (processAll h total' index' s ds).trace.calls := by
  induction ds generalizing index index' s with
  | nil => exact ⟨rfl, rfl, rfl⟩
  | cons d ds ih =>
    obtain ⟨houtcomes, hsession, hcalls⟩ := ih (index + 1) (index' + 1) (Link.process h s d).session
    refine ⟨?_, ?_, ?_⟩
    · simp only [processAll, houtcomes]
    · rw [session_processAll_cons, session_processAll_cons, hsession]
    · rw [calls_processAll_cons, calls_processAll_cons, hcalls]

theorem outcomes_attachAll (ds : List Directive) :
    (attachAll h ds).report.outcomes = (work h .fresh ds).outcomes :=
  (processAll_numbering h ds.length 0 1 0 .fresh ds).1

theorem dropLast_calls_attachAll (ds : List Directive) :
    (attachAll h ds).trace.calls.dropLast = (work h .fresh ds).trace.calls := by
  rw [calls_attachAll, List.dropLast_concat]
  exact (processAll_numbering h ds.length 0 1 0 .fresh ds).2.2

section

variable (s : Session) (d : Directive) (ds es : List Directive)

@[simp] theorem session_work_nil : (work h s []).session = s := rfl

theorem outcomes_work_cons : (work h s (d :: ds)).outcomes =
    (d, failure? (Link.process h s d).result) ::
      (work h (Link.process h s d).session ds).outcomes := by
  have hrest := (processAll_numbering h 0 0 1 0 (Link.process h s d).session ds).1
  exact congrArg ((d, failure? (Link.process h s d).result) :: ·) hrest

theorem session_work_cons :
    (work h s (d :: ds)).session = (work h (Link.process h s d).session ds).session :=
  (processAll_numbering h 0 0 1 0 (Link.process h s d).session ds).2.1

theorem calls_work_cons : (work h s (d :: ds)).trace.calls =
    (Link.process h s d).trace.calls ++ (work h (Link.process h s d).session ds).trace.calls := by
  have hrest := (processAll_numbering h 0 0 1 0 (Link.process h s d).session ds).2.2
  exact (calls_processAll_cons h 0 0 s d ds).trans
    (congrArg ((Link.process h s d).trace.calls ++ ·) hrest)

theorem outcomes_work_append : (work h s (ds ++ es)).outcomes =
    (work h s ds).outcomes ++ (work h (work h s ds).session es).outcomes := by
  induction ds generalizing s with
  | nil => rfl
  | cons d ds ih =>
    rw [List.cons_append, outcomes_work_cons, ih, outcomes_work_cons, session_work_cons,
      List.cons_append]

theorem calls_work_append : (work h s (ds ++ es)).trace.calls =
    (work h s ds).trace.calls ++ (work h (work h s ds).session es).trace.calls := by
  induction ds generalizing s with
  | nil => rfl
  | cons d ds ih =>
    rw [List.cons_append, calls_work_cons, ih, calls_work_cons, session_work_cons,
      List.append_assoc]

theorem map_fst_outcomes_work : (work h s ds).outcomes.map (·.1) = ds :=
  map_fst_outcomes_processAll h 0 0 s ds

end

theorem getElem?_outcomes_attachAll (before after : List Directive) (d : Directive) :
    (attachAll h (before ++ d :: after)).report.outcomes[before.length]? =
      some (d, failure? (Link.process h (work h .fresh before).session d).result) := by
  have hlength : (work h .fresh before).outcomes.length = before.length := by
    rw [← List.length_map (·.1), map_fst_outcomes_work]
  rw [outcomes_attachAll, outcomes_work_append, outcomes_work_cons, ← hlength,
    List.getElem?_append_right (Nat.le_refl _), Nat.sub_self, List.getElem?_cons_zero]

/-- A directive adds as many links as its calls make. -/
theorem links_process (s : Session) (d : Directive) :
    (Link.process h s d).session.links =
      s.links + (Link.process h s d).trace.calls.countP (Call.makesLink h) := by
  have hlook := countP_lookups (Call.makesLink h) h d.programName rfl rfl rfl
  have hp := Link.process_processed h s d
  generalize Link.process h s d = o at hp ⊢
  cases hp with
  | unknown => simp [hlook]
  | invalid => simp [hlook]
  | refused _ _ ha => simp [hlook, Call.makesLink, ha]
  | unpinned _ _ ha => simp [hlook, Call.makesLink, ha]
  | pinned _ _ ha => simp [hlook, Call.makesLink, ha]

theorem links_work (s : Session) (ds : List Directive) :
    (work h s ds).session.links =
      s.links + (work h s ds).trace.calls.countP (Call.makesLink h) := by
  induction ds generalizing s with
  | nil => rfl
  | cons d ds ih =>
    rw [session_work_cons, ih, links_process, calls_work_cons, List.countP_append, Nat.add_assoc]

theorem countP_makesLink_attachAll (ds : List Directive) :
    (attachAll h ds).trace.calls.countP (Call.makesLink h) = (work h .fresh ds).session.links := by
  have hlast : [lastCall (attachAll h ds).report].countP (Call.makesLink h) = 0 := by
    unfold lastCall
    split <;> rfl
  rw [links_work, calls_attachAll, List.countP_append, hlast,
    (processAll_numbering h ds.length 0 1 0 .fresh ds).2.2]
  exact Nat.add_comm _ 0

theorem nextLink_eq (before : List Directive) :
    nextLink h before = (work h .fresh before).session.links + 1 :=
  congrArg (· + 1) (countP_makesLink_attachAll h before)

/-- What happens to the link of one directive happens while that directive is processed. -/
theorem about_work_middle (s : Session) (before after : List Directive) (d : Directive)
    {link : LinkId} (hlow : (work h s before).session.links < link)
    (hhigh : link ≤ (Link.process h (work h s before).session d).session.links) :
    about link (work h s (before ++ d :: after)).trace.calls =
      about link (Link.process h (work h s before).session d).trace.calls := by
  have hbefore := ((about_processAll h 0 0 s before).2 link).1 (Or.inr hlow)
  have hafter := ((about_processAll h 0 0
    (Link.process h (work h s before).session d).session after).2 link).1 (Or.inl hhigh)
  change about link (work h s before).trace.calls = [] at hbefore
  change about link (work h _ after).trace.calls = [] at hafter
  rw [calls_work_append, calls_work_cons, about_append, about_append, hbefore, hafter,
    List.nil_append, List.append_nil]

end Attachment

end ProbeLoader
