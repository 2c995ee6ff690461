import ProbeLoader.Proofs.Preflight.Directories

/-!
# Warnings about pin directories

Each pin directory is asked about once, by its last spelling, and there is one warning about it if
links cannot be pinned there. The warnings come in the order of the directories. Directives in
another order, or repeated, change nothing but the spelling of directories in the warnings, unless
the system answers differently to different spellings.
-/

namespace ProbeLoader

namespace Preflight

open ProbeLoader.Path

/-- Why links cannot be pinned in a directory. -/
inductive Obstacle where
  | notBpf
  | unasked (e : OsError)
  deriving DecidableEq, Repr

def obstacle? : Except OsError Bool → Option Obstacle
  | .ok true => none
  | .ok false => some .notBpf
  | .error e => some (.unasked e)

def Obstacle.warning (dir : Path) : Obstacle → String
  | .notBpf =>
    s!"{dir.shown} is not on a BPF filesystem (e.g. /sys/fs/bpf): " ++ "pinning there will fail."
  | .unasked e => s!"Cannot use {dir.shown} for pinning: {e.symbol}"

/-- A directory and why links cannot be pinned in it. -/
def found? (isBpf : Path → Except OsError Bool) (dir : Path) : Option (Path × Obstacle) :=
  (obstacle? (isBpf dir)).map fun o => (dir, o)

/-- What is told about the pin directories of directives. -/
structure Tells (isBpf : Path → Except OsError Bool) (ds : List Directive)
    (told : List (Path × Obstacle)) : Prop where
  warnings : warnings isBpf ds = told.map fun t => t.2.warning t.1
  records : check isBpf ds = told.map fun t => .warn (t.2.warning t.1)
  /-- For each class of paths that are the same directory, the spelling that was given last is
  told about if there is an obstacle, and nothing else is. -/
  one_each : ∀ cs, (told.filter fun t => t.1.components = cs) =
    ((lastOf cs (spelled ds)).bind (found? isBpf)).toList
  ascending : told.Pairwise fun t u => Before t.1 u.1

/-- How the warnings depend on directives and on what the system answers. -/
structure ToldOnce (isBpf : Path → Except OsError Bool) (ds : List Directive) : Prop where
  directory : ∀ p, HasDirectory p (directory? p)
  told : ∃ told, Tells isBpf ds told ∧
    ((∀ p q, SameDirectory p q → isBpf p = isBpf q) → ∀ ds', (∀ d, d ∈ ds' ↔ d ∈ ds) →
      ∃ told', Tells isBpf ds' told' ∧
        List.Forall₂ (fun t t' => SameDirectory t.1 t'.1 ∧ t.2 = t'.2) told told')

section

variable {isBpf : Path → Except OsError Bool} {ds ds' : List Directive}

theorem warning?_eq (isBpf : Path → Except OsError Bool) (dir : Path) :
    warning? isBpf dir = (found? isBpf dir).map fun t => t.2.warning t.1 := by
  unfold warning? found?
  cases isBpf dir with
  | error e => rfl
  | ok answer =>
    cases answer with
    | true => rfl
    | false => rfl

theorem lastOf_eq_some {cs : List Component} {ps : List Path} {p : Path}
    (h : lastOf cs ps = some p) : p ∈ ps ∧ p.components = cs := by
  have hmem := List.mem_of_getLast? h
  simpa using List.mem_filter.mp hmem

theorem filter_directories (ds : List Directive) (cs : List Component) :
    ((directories ds).filter fun dir => dir.components = cs) = (lastOf cs (spelled ds)).toList := by
  have hnodup : (directories ds).Nodup := by
    apply (pairwise_directories ds).imp
    intro p q hpq heq
    exact hpq.not_same (congrArg components heq)
  have hperm : ((directories ds).filter fun dir => dir.components = cs).Perm
      (lastOf cs (spelled ds)).toList := by
    apply (List.perm_ext_iff_of_nodup (hnodup.filter _) _).mpr
    · intro dir
      rw [List.mem_filter, mem_directories_iff, Option.mem_toList, decide_eq_true_eq]
      constructor
      · intro h
        obtain ⟨hlast, rfl⟩ := h
        exact hlast
      · intro hlast
        obtain rfl := (lastOf_eq_some hlast).2
        exact ⟨hlast, rfl⟩
    · cases lastOf cs (spelled ds) <;> simp
  cases hlast : lastOf cs (spelled ds) with
  | none =>
    rw [hlast] at hperm
    exact hperm.eq_nil
  | some dir =>
    rw [hlast] at hperm
    exact hperm.eq_singleton

theorem tells_directories (isBpf : Path → Except OsError Bool) (ds : List Directive) :
    Tells isBpf ds ((directories ds).filterMap (found? isBpf)) := by
  have hwarnings : warnings isBpf ds =
      ((directories ds).filterMap (found? isBpf)).map fun t => t.2.warning t.1 := by
    unfold warnings
    rw [List.map_filterMap]
    congr 1
    funext dir
    exact warning?_eq isBpf dir
  refine ⟨hwarnings, ?_, ?_, ?_⟩
  · unfold check
    rw [hwarnings, List.map_map]
    rfl
  · intro cs
    have hfound : (fun dir => (found? isBpf dir).filter fun t => t.1.components = cs) =
        fun dir => if decide (dir.components = cs) = true then found? isBpf dir else none := by
      funext dir
      unfold found?
      cases obstacle? (isBpf dir) <;> by_cases hcs : dir.components = cs <;> simp [hcs]
    rw [List.filter_filterMap, hfound, ← List.filterMap_filter, filter_directories]
    cases lastOf cs (spelled ds) with
    | none => rfl
    | some dir => cases hdir : found? isBpf dir <;> simp [hdir]
  · apply (pairwise_directories ds).filterMap (found? isBpf)
    intro p q hpq t ht u hu
    obtain ⟨o, _, rfl⟩ := Option.map_eq_some_iff.mp ht
    obtain ⟨o', _, rfl⟩ := Option.map_eq_some_iff.mp hu
    exact hpq

theorem mem_spelled_iff {dir : Path} :
    dir ∈ spelled ds ↔ ∃ d ∈ ds, directory? d.pinPath = some dir := List.mem_filterMap

theorem mem_map_components_iff {cs : List Component} :
    cs ∈ (directories ds).map components ↔ ∃ dir ∈ spelled ds, dir.components = cs := by
  constructor
  · intro hcs
    obtain ⟨dir, hdir, rfl⟩ := List.mem_map.mp hcs
    exact ⟨dir, (lastOf_eq_some (mem_directories_iff.mp hdir)).1, rfl⟩
  · intro hcs
    obtain ⟨dir, hdir, rfl⟩ := hcs
    have hne : ((spelled ds).filter fun p => p.components = dir.components) ≠ [] := by
      apply List.ne_nil_of_mem (List.mem_filter.mpr ⟨hdir, _⟩)
      exact decide_eq_true rfl
    obtain ⟨last, hlast⟩ : ∃ last, lastOf dir.components (spelled ds) = some last :=
      ⟨_, List.getLast?_eq_some_getLast hne⟩
    have hsame := (lastOf_eq_some hlast).2
    rw [← hsame] at hlast
    exact List.mem_map.mpr ⟨last, mem_directories_iff.mpr hlast, hsame⟩

theorem forall₂_found (halike : ∀ p q, SameDirectory p q → isBpf p = isBpf q) {ps qs : List Path}
    (hsame : List.Forall₂ SameDirectory ps qs) :
    List.Forall₂ (fun t t' => SameDirectory t.1 t'.1 ∧ t.2 = t'.2)
      (ps.filterMap (found? isBpf)) (qs.filterMap (found? isBpf)) := by
  induction hsame with
  | nil => exact .nil
  | @cons p q ps qs hpq _ ih =>
    rw [List.filterMap_cons, List.filterMap_cons]
    unfold found? at ih ⊢
    rw [halike p q hpq]
    cases obstacle? (isBpf q) with
    | none => exact ih
    | some o => exact .cons ⟨hpq, rfl⟩ ih

end

/-- Every pin directory has at most one warning, which tells why links cannot be pinned there by
its last spelling, and the warnings come in the order of paths. -/
theorem check_toldOnce (isBpf : Path → Except OsError Bool) (ds : List Directive) :
    ToldOnce isBpf ds := by
  refine ⟨directory?_hasDirectory, _, tells_directories isBpf ds, ?_⟩
  intro halike ds' hds'
  refine ⟨_, tells_directories isBpf ds', ?_⟩
  apply forall₂_found halike
  apply forall₂_sameDirectory (pairwise_directories ds) (pairwise_directories ds')
  intro cs
  rw [mem_map_components_iff, mem_map_components_iff]
  simp only [mem_spelled_iff, hds']

end Preflight

end ProbeLoader
