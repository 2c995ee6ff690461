import ProbeLoader.Hook
import Mathlib.Data.List.TakeWhile

/-!
# Which targets name hook points

The target of a tracepoint is a group without a colon, a colon and an event, and neither of the two
is empty; the event may have further colons. A target of another kind is a symbol as it stands.
-/

namespace ProbeLoader.Hook

/-- The hook point that a target of a kind names. -/
inductive Named : ProbeKind → String → Hook → Prop where
  | tracepoint {group name : String} : ':' ∉ group.toList → group ≠ "" → name ≠ "" →
      Named .tracepoint (group ++ ":" ++ name) (.tracepoint group name)
  | kprobe (symbol : String) : Named .kprobe symbol (.kprobe symbol)
  | kretprobe (symbol : String) : Named .kretprobe symbol (.kretprobe symbol)

theorem named_of_ofTracepointTarget {target : String} {hook : Hook}
    (hhook : ofTracepointTarget target = .ok hook) : Named .tracepoint target hook := by
  have hcut := List.takeWhile_append_dropWhile (p := (· != ':')) (l := target.toList)
  have hgroup : ':' ∉ target.toList.takeWhile (· != ':') := by
    intro hmem
    have hne := List.mem_takeWhile_imp hmem
    exact absurd hne (by decide)
  unfold ofTracepointTarget at hhook
  dsimp only at hhook
  cases hdrop : target.toList.dropWhile (· != ':') with
  | nil =>
    rw [hdrop] at hhook
    exact nomatch hhook
  | cons c name =>
    have hcolon : (c != ':') = false := by
      have hhead := List.head?_dropWhile_not (· != ':') target.toList
      rwa [hdrop] at hhead
    obtain rfl : c = ':' := by simpa using hcolon
    rw [hdrop] at hhook hcut
    dsimp only at hhook
    generalize target.toList.takeWhile (· != ':') = group at hgroup hhook hcut
    split at hhook
    · exact nomatch hhook
    · rename_i hparts
      obtain rfl := Except.ok.inj hhook
      have htarget : target = String.ofList group ++ ":" ++ String.ofList name := by
        apply String.toList_inj.mp
        simpa using hcut.symm
      rw [htarget]
      simp only [List.isEmpty_iff, Bool.or_eq_true, not_or] at hparts
      refine .tracepoint ?_ ?_ ?_
      · rwa [String.toList_ofList]
      · simpa [← String.toList_inj] using hparts.1
      · simpa [← String.toList_inj] using hparts.2

theorem ofTracepointTarget_append {group name : String} (hgroup : ':' ∉ group.toList)
    (hgroupNe : group ≠ "") (hnameNe : name ≠ "") :
    ofTracepointTarget (group ++ ":" ++ name) = .ok (.tracepoint group name) := by
  have hpass : ∀ c ∈ group.toList, (c != ':') = true := by
    intro c hc
    apply bne_iff_ne.mpr
    rintro rfl
    exact hgroup hc
  have htarget : (group ++ ":" ++ name).toList = group.toList ++ ':' :: name.toList := by
    simp
  have htake : (group ++ ":" ++ name).toList.takeWhile (· != ':') = group.toList := by
    rw [htarget, List.takeWhile_append_of_pos hpass]
    simp
  have hdrop : (group ++ ":" ++ name).toList.dropWhile (· != ':') = ':' :: name.toList := by
    rw [htarget, List.dropWhile_append_of_pos hpass]
    simp
  have hfull : (group.toList.isEmpty || name.toList.isEmpty) = false := by
    simp [hgroupNe, hnameNe]
  unfold ofTracepointTarget
  dsimp only
  rw [hdrop, htake]
  dsimp only
  rw [hfull, String.ofList_toList, String.ofList_toList]
  rfl

theorem ofTarget_eq_ok_iff {kind : ProbeKind} {target : String} {hook : Hook} :
    ofTarget kind target = .ok hook ↔ Named kind target hook := by
  constructor
  · intro hhook
    cases kind with
    | tracepoint => exact named_of_ofTracepointTarget hhook
    | kprobe =>
      obtain rfl := Except.ok.inj hhook
      exact .kprobe target
    | kretprobe =>
      obtain rfl := Except.ok.inj hhook
      exact .kretprobe target
  · intro hnamed
    cases hnamed with
    | tracepoint hgroup hgroupNe hnameNe =>
      exact ofTracepointTarget_append hgroup hgroupNe hnameNe
    | kprobe => rfl
    | kretprobe => rfl

end ProbeLoader.Hook
