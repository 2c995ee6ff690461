import ProbeLoader.Text.Blank

/-!
# Where words stand in a text

A list is cut into runs in one way only: a run follows a gap of separators and ends where a
separator stands or the list ends. So runs are known from the list around them, the gaps are known
too, and separators at the end of a list or more of them between two runs change nothing.
-/

namespace ProbeLoader.Text

variable {α : Type} {sep : α → Bool}

/-- A stretch of separators, which may be empty. -/
def IsGap (sep : α → Bool) (g : List α) : Prop := ∀ a ∈ g, sep a = true

/-- A non-empty stretch without a separator. -/
def IsRun (sep : α → Bool) (t : List α) : Prop := t ≠ [] ∧ ∀ a ∈ t, sep a = false

/-- A list that a run can stand in front of: it is empty or begins with a separator. -/
def Breaks (sep : α → Bool) (l : List α) : Prop := ∀ a ∈ l.head?, sep a = true

@[simp] theorem runs_nil : runs sep ([] : List α) = [] := rfl

/-- Runs on both sides of a separator are independent. -/
theorem runs_append_cons {b : α} (hb : sep b = true) (l r : List α) :
    runs sep (l ++ b :: r) = runs sep l ++ runs sep r := by
  unfold runs
  rw [segments_append_cons sep hb, List.filter_append]

theorem runs_gap_append {g : List α} (hg : IsGap sep g) (l : List α) :
    runs sep (g ++ l) = runs sep l := by
  induction g with
  | nil => rfl
  | cons b g ih =>
    have hb := runs_append_cons (hg b List.mem_cons_self) [] (g ++ l)
    rw [List.nil_append, runs_nil, List.nil_append] at hb
    exact hb.trans (ih fun a ha => hg a (List.mem_cons_of_mem b ha))

theorem runs_gap {g : List α} (hg : IsGap sep g) : runs sep g = [] := by
  simpa using runs_gap_append hg []

theorem runs_append_gap {g : List α} (hg : IsGap sep g) (l : List α) :
    runs sep (l ++ g) = runs sep l := by
  cases g with
  | nil => rw [List.append_nil]
  | cons b g =>
    rw [runs_append_cons (hg b List.mem_cons_self),
      runs_gap fun a ha => hg a (List.mem_cons_of_mem b ha), List.append_nil]

theorem runs_run {t : List α} (ht : IsRun sep t) : runs sep t = [t] := by
  unfold runs
  rw [segments_eq_singleton sep ht.2]
  simp [ht.1]

theorem runs_run_append {t rest : List α} (ht : IsRun sep t) (hrest : Breaks sep rest) :
    runs sep (t ++ rest) = t :: runs sep rest := by
  cases rest with
  | nil => rw [List.append_nil, runs_run ht, runs_nil]
  | cons b rest =>
    have hb : sep b = true := hrest b rfl
    rw [runs_append_cons hb, runs_run ht, ← List.nil_append (b :: rest), runs_append_cons hb]
    rfl

theorem gap_or_run (sep : α → Bool) (l : List α) :
    IsGap sep l ∨ ∃ g t rest, l = g ++ (t ++ rest) ∧ IsGap sep g ∧ IsRun sep t ∧
      Breaks sep rest := by
  induction l with
  | nil => exact Or.inl fun a ha => absurd ha List.not_mem_nil
  | cons a l ih =>
    cases ha : sep a with
    | true =>
      have hcons {g : List α} (hg : IsGap sep g) : IsGap sep (a :: g) := by
        intro b hb
        rcases List.mem_cons.mp hb with rfl | hb
        · exact ha
        · exact hg b hb
      rcases ih with hg | ⟨g, t, rest, rfl, hg, ht, hrest⟩
      · exact Or.inl (hcons hg)
      · exact Or.inr ⟨a :: g, t, rest, rfl, hcons hg, ht, hrest⟩
    | false =>
      have hcons {t : List α} (ht : ∀ b ∈ t, sep b = false) : IsRun sep (a :: t) := by
        refine ⟨List.cons_ne_nil a t, ?_⟩
        intro b hb
        rcases List.mem_cons.mp hb with rfl | hb
        · exact ha
        · exact ht b hb
      have hnil : IsGap sep ([] : List α) := fun b hb => absurd hb List.not_mem_nil
      -- The run of `a` goes on with the first run of the rest if no gap stands between them.
      rcases ih with hg | ⟨g, t, rest, rfl, hg, ht, hrest⟩
      · refine Or.inr ⟨[], [a], l, rfl, hnil, hcons fun b hb => absurd hb List.not_mem_nil, ?_⟩
        intro b hb
        exact hg b (List.mem_of_head? hb)
      · cases g with
        | nil => exact Or.inr ⟨[], a :: t, rest, rfl, hnil, hcons ht.2, hrest⟩
        | cons b g =>
          refine Or.inr ⟨[], [a], b :: g ++ (t ++ rest), rfl, hnil,
            hcons fun b hb => absurd hb List.not_mem_nil, ?_⟩
          intro c hc
          obtain rfl : b = c := Option.some.inj hc
          exact hg b List.mem_cons_self

/-- The first run of a list, where it stands and what follows it. -/
theorem runs_eq_cons_iff {l t : List α} {ts : List (List α)} :
    runs sep l = t :: ts ↔ ∃ g rest, l = g ++ (t ++ rest) ∧ IsGap sep g ∧ IsRun sep t ∧
      Breaks sep rest ∧ runs sep rest = ts := by
  constructor
  · intro hl
    rcases gap_or_run sep l with hg | ⟨g, u, rest, rfl, hg, hu, hrest⟩
    · rw [runs_gap hg] at hl
      exact absurd hl.symm (List.cons_ne_nil t ts)
    · rw [runs_gap_append hg, runs_run_append hu hrest, List.cons.injEq] at hl
      obtain ⟨rfl, hts⟩ := hl
      exact ⟨g, rest, rfl, hg, hu, hrest, hts⟩
  · rintro ⟨g, rest, rfl, hg, ht, hrest, rfl⟩
    rw [runs_gap_append hg, runs_run_append ht hrest]

theorem runs_eq_nil_iff {l : List α} : runs sep l = [] ↔ IsGap sep l := by
  constructor
  · intro hl
    rcases gap_or_run sep l with hg | ⟨g, t, rest, rfl, hg, ht, hrest⟩
    · exact hg
    · rw [runs_gap_append hg, runs_run_append ht hrest] at hl
      exact absurd hl (List.cons_ne_nil _ _)
  · exact runs_gap

/-- What stands in front of a place where a property begins to fail is known from the whole. -/
theorem append_inj_of_boundary {p : α → Bool} {u v x y : List α} (hu : ∀ a ∈ u, p a = true)
    (hv : ∀ a ∈ v, p a = true) (hx : ∀ a ∈ x.head?, p a = false)
    (hy : ∀ a ∈ y.head?, p a = false) (heq : u ++ x = v ++ y) : u = v ∧ x = y := by
  induction u generalizing v with
  | nil =>
    cases v with
    | nil => exact ⟨rfl, heq⟩
    | cons b v =>
      have hb : p b = false := hx b (by rw [← List.nil_append x, heq]; rfl)
      exact absurd (hv b List.mem_cons_self) (by simp [hb])
  | cons a u ih =>
    cases v with
    | nil =>
      have ha : p a = false := hy a (by rw [← List.nil_append y, ← heq]; rfl)
      exact absurd (hu a List.mem_cons_self) (by simp [ha])
    | cons b v =>
      obtain ⟨rfl, htail⟩ := List.cons.inj heq
      obtain ⟨rfl, hxy⟩ := ih (fun c hc => hu c (List.mem_cons_of_mem a hc))
        (fun c hc => hv c (List.mem_cons_of_mem a hc)) htail
      exact ⟨rfl, hxy⟩

theorem breaks_gap_append {g : List α} (hg : IsGap sep g) (hne : g ≠ []) (l : List α) :
    Breaks sep (g ++ l) := by
  cases g with
  | nil => exact absurd rfl hne
  | cons b g =>
    intro a ha
    obtain rfl : b = a := Option.some.inj ha
    exact hg b List.mem_cons_self

theorem breaks_gap {g : List α} (hg : IsGap sep g) : Breaks sep g :=
  fun _ ha => hg _ (List.mem_of_head? ha)

theorem gap_run_inj {g g' t t' rest rest' : List α} (hg : IsGap sep g) (hg' : IsGap sep g')
    (ht : IsRun sep t) (ht' : IsRun sep t') (hrest : Breaks sep rest) (hrest' : Breaks sep rest')
    (heq : g ++ (t ++ rest) = g' ++ (t' ++ rest')) : g = g' ∧ t = t' ∧ rest = rest' := by
  have hhead {t : List α} (ht : IsRun sep t) (l : List α) :
      ∀ a ∈ (t ++ l).head?, sep a = false := by
    cases t with
    | nil => exact absurd rfl ht.1
    | cons b t =>
      intro a ha
      obtain rfl : b = a := Option.some.inj ha
      exact ht.2 b List.mem_cons_self
  obtain ⟨rfl, htail⟩ := append_inj_of_boundary hg hg' (hhead ht rest) (hhead ht' rest') heq
  have hfree {t : List α} (ht : IsRun sep t) : ∀ a ∈ t, (!sep a) = true := by
    intro a ha
    rw [ht.2 a ha, Bool.not_false]
  have hstop {l : List α} (hl : Breaks sep l) : ∀ a ∈ l.head?, (!sep a) = false := by
    intro a ha
    rw [hl a ha, Bool.not_true]
  obtain ⟨hrun, hrests⟩ :=
    append_inj_of_boundary (hfree ht) (hfree ht') (hstop hrest) (hstop hrest') htail
  exact ⟨rfl, hrun, hrests⟩

/-- A run is known from a list that it stands at the beginning of. -/
theorem run_inj {t t' rest rest' : List α} (ht : IsRun sep t) (ht' : IsRun sep t')
    (hrest : Breaks sep rest) (hrest' : Breaks sep rest') (heq : t ++ rest = t' ++ rest') :
    t = t' ∧ rest = rest' := by
  have hnil : IsGap sep ([] : List α) := fun _ ha => absurd ha List.not_mem_nil
  exact (gap_run_inj hnil hnil ht ht' hrest hrest' heq).2

theorem words_eq_iff {s : String} {ws : List String} :
    words s = ws ↔ runs isSeparator s.toList = ws.map String.toList := by
  unfold words
  constructor
  · rintro rfl
    simp
  · intro h
    rw [h]
    simp

end ProbeLoader.Text
