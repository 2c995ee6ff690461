import ProbeLoader.Preflight
import ProbeLoader.Proofs.Path.Order
import ProbeLoader.Proofs.Path.Parent
import Mathlib.Data.List.Forall2

/-!
# The directories of pin paths

The pin directories of directives are an ascending list in which each directory occurs once. Of
several spellings of a directory the last one stays. So the list is known from which directories
there are, and only its spelling depends on the order of the directives.
-/

namespace ProbeLoader

namespace Preflight

open ProbeLoader.Path

/-- What the directory of a path is: its parent, a dot in place of an empty one. -/
inductive HasDirectory (p : Path) : Option Path → Prop where
  | none : p.components = [] ∨ p.components = [.root] → HasDirectory p none
  | here {c : Component} : p.components = [c] → c ≠ .root → HasDirectory p (some here)
  | inside {dir : Path} {c : Component} : dir.components ≠ [] →
      p.components = dir.components ++ [c] → dir.bytes <+: p.bytes → HasDirectory p (some dir)

/-- The directories of directives, as each of them spells its own. -/
def spelled (ds : List Directive) : List Path :=
  ds.filterMap fun d => directory? d.pinPath

/-- The last one of paths that has given components. -/
def lastOf (cs : List Component) (ps : List Path) : Option Path :=
  (ps.filter fun p => p.components = cs).getLast?

theorem directory?_hasDirectory (p : Path) : HasDirectory p (directory? p) := by
  have hparent := parent?_hasParent p
  unfold directory?
  cases hq : p.parent? with
  | none =>
    rw [hq] at hparent
    cases hparent with
    | none h => exact .none h
  | some q =>
    rw [hq] at hparent
    cases hparent with
    | @some q c hcomponents hc hprefix =>
      rw [Option.map_some]
      split
      · next hempty =>
        have hnil := components_eq_nil_iff.mpr (List.isEmpty_iff.mp hempty)
        rw [hnil] at hcomponents
        exact .here hcomponents hc
      · next hempty =>
        have hne : q.components ≠ [] := fun hnil =>
          hempty (List.isEmpty_iff.mpr (components_eq_nil_iff.mp hnil))
        exact .inside hne hcomponents hprefix

section

variable {p q : Path} {ps qs : List Path}

theorem mem_insert_iff (hps : ps.Pairwise Before) :
    q ∈ insert p ps ↔ q = p ∨ (q ∈ ps ∧ ¬ SameDirectory q p) := by
  induction ps with
  | nil => simp [insert]
  | cons first ps ih =>
    obtain ⟨hfirst, hps⟩ := List.pairwise_cons.mp hps
    have hlater (h : ¬ Before first p) (hq : q ∈ ps) : ¬ SameDirectory q p := by
      intro hsame
      exact h ((hfirst q hq).congr rfl hsame)
    unfold insert
    split
    · next horder =>
      -- All others come after the path, so it takes no place.
      have hbefore := order_eq_lt_iff.mp horder
      have hother (hq : q ∈ first :: ps) : ¬ SameDirectory q p := by
        rcases List.mem_cons.mp hq with rfl | hq
        · exact fun hsame => hbefore.not_same hsame.symm
        · exact fun hsame => (hbefore.trans (hfirst q hq)).not_same hsame.symm
      rw [List.mem_cons]
      exact or_congr_right ⟨fun hq => ⟨hq, hother hq⟩, And.left⟩
    · next horder =>
      have hsame := order_eq_eq_iff.mp horder
      have hnot : ¬ Before first p := fun h => h.not_same hsame.symm
      rw [List.mem_cons, List.mem_cons]
      apply or_congr_right
      constructor
      · intro hq
        exact ⟨Or.inr hq, hlater hnot hq⟩
      · intro h
        obtain ⟨hq, hother⟩ := h
        rcases hq with rfl | hq
        · exact absurd hsame.symm hother
        · exact hq
    · next horder =>
      have hbefore := order_eq_gt_iff.mp horder
      rw [List.mem_cons, ih hps, List.mem_cons]
      constructor
      · intro h
        rcases h with rfl | rfl | ⟨hq, hother⟩
        · exact Or.inr ⟨Or.inl rfl, hbefore.not_same⟩
        · exact Or.inl rfl
        · exact Or.inr ⟨Or.inr hq, hother⟩
      · intro h
        rcases h with rfl | ⟨rfl | hq, hother⟩
        · exact Or.inr (Or.inl rfl)
        · exact Or.inl rfl
        · exact Or.inr (Or.inr ⟨hq, hother⟩)

theorem pairwise_insert (p : Path) (hps : ps.Pairwise Before) :
    (insert p ps).Pairwise Before := by
  induction ps with
  | nil => exact List.pairwise_singleton _ _
  | cons first ps ih =>
    obtain ⟨hfirst, hps⟩ := List.pairwise_cons.mp hps
    unfold insert
    split
    · next horder =>
      have hbefore := order_eq_lt_iff.mp horder
      apply List.pairwise_cons.mpr
      refine ⟨?_, List.pairwise_cons.mpr ⟨hfirst, hps⟩⟩
      intro q hq
      rcases List.mem_cons.mp hq with rfl | hq
      · exact hbefore
      · exact hbefore.trans (hfirst q hq)
    · next horder =>
      have hsame := order_eq_eq_iff.mp horder
      apply List.pairwise_cons.mpr
      refine ⟨?_, hps⟩
      intro q hq
      exact (hfirst q hq).congr hsame.symm rfl
    · next horder =>
      have hbefore := order_eq_gt_iff.mp horder
      apply List.pairwise_cons.mpr
      refine ⟨?_, ih hps⟩
      intro q hq
      rcases (mem_insert_iff hps).mp hq with rfl | ⟨hq, _⟩
      · exact hbefore
      · exact hfirst q hq

theorem lastOf_concat (cs : List Component) (ps : List Path) (p : Path) :
    lastOf cs (ps ++ [p]) = if p.components = cs then some p else lastOf cs ps := by
  unfold lastOf
  rw [List.filter_append]
  split
  · next h => simp [h]
  · next h => simp [h]

/-- Paths that are inserted one after the other are in order, each as it was spelled last. -/
theorem foldl_insert (ps : List Path) :
    (ps.foldl (fun qs p => insert p qs) []).Pairwise Before ∧
      ∀ q, q ∈ ps.foldl (fun qs p => insert p qs) [] ↔ lastOf q.components ps = some q := by
  induction ps using List.reverseRecOn with
  | nil => exact ⟨.nil, fun q => by simp [lastOf]⟩
  | append_singleton ps p ih =>
    obtain ⟨hascending, hmem⟩ := ih
    rw [List.foldl_append, List.foldl_cons, List.foldl_nil]
    refine ⟨pairwise_insert p hascending, ?_⟩
    intro q
    rw [mem_insert_iff hascending, hmem, lastOf_concat]
    unfold SameDirectory
    split
    · next hsame =>
      rw [Option.some.injEq, hsame]
      simp [eq_comm]
    · next hother =>
      have hne : q ≠ p := fun h => hother (h ▸ rfl)
      have hnot : ¬ q.components = p.components := fun h => hother h.symm
      simp [hne, hnot]

theorem pairwise_directories (ds : List Directive) : (directories ds).Pairwise Before :=
  (foldl_insert (spelled ds)).1

theorem mem_directories_iff {ds : List Directive} {dir : Path} :
    dir ∈ directories ds ↔ lastOf dir.components (spelled ds) = some dir :=
  (foldl_insert (spelled ds)).2 dir

/-- One directory is spelled in two ways, and the root has none. -/
example : (directories (["/b//c/x", "a", "/b/c/./y", "/"].map fun pin =>
    ⟨1, .ofString pin, "p", .kprobe, "f"⟩)).map shown = ["/b/c", "."] := by
  decide +kernel

/-- Ascending lists of the same directories differ in their spelling only. -/
theorem forall₂_sameDirectory (hps : ps.Pairwise Before) (hqs : qs.Pairwise Before)
    (hsame : ∀ cs, cs ∈ ps.map components ↔ cs ∈ qs.map components) :
    List.Forall₂ SameDirectory ps qs := by
  have hsorted {rs : List Path} (hrs : rs.Pairwise Before) :
      (rs.map components).Pairwise (List.Lex Component.Before) :=
    hrs.map components fun _ _ h => h
  have hnodup {rs : List Path} (hrs : rs.Pairwise Before) : (rs.map components).Nodup :=
    hrs.map components fun _ _ h => h.not_same
  have hperm := (List.perm_ext_iff_of_nodup (hnodup hps) (hnodup hqs)).mpr hsame
  have heq : ps.map components = qs.map components := by
    apply hperm.eq_of_pairwise _ (hsorted hps) (hsorted hqs)
    intro a b ha hb hab hba
    obtain ⟨p, _, rfl⟩ := List.mem_map.mp ha
    obtain ⟨q, _, rfl⟩ := List.mem_map.mp hb
    have hpp : Before p p := Before.trans (show Before p q from hab) hba
    exact absurd rfl hpp.not_same
  rw [← List.forall₂_eq_eq_eq, List.forall₂_map_left_iff, List.forall₂_map_right_iff] at heq
  exact heq

end

end Preflight

end ProbeLoader
