import ProbeLoader.Text.Split

/-!
# Segments between separators

Cutting a list at one separator and joining the segments again are inverse to each other, as long
as the segments have no separator of their own, which those of a cut list never have.
-/

namespace ProbeLoader.Text

variable {α : Type} [BEq α] (sep : α)

theorem segments_eq_splitOn (l : List α) : segments (· == sep) l = l.splitOn sep := by
  induction l with
  | nil => rfl
  | cons a l ih =>
    rw [List.splitOn_cons_eq_if_modifyHead, segments, ih]
    split
    · rfl
    · cases hparts : l.splitOn sep with
      | nil => exact absurd hparts (List.splitOn_ne_nil _ _)
      | cons s rest => rfl

variable [LawfulBEq α]

theorem intercalate_segments (l : List α) : [sep].intercalate (segments (· == sep) l) = l := by
  rw [segments_eq_splitOn]
  exact List.intercalate_splitOn sep

theorem segments_intercalate {ls : List (List α)} (hls : ∀ s ∈ ls, sep ∉ s) (hne : ls ≠ []) :
    segments (· == sep) ([sep].intercalate ls) = ls := by
  rw [segments_eq_splitOn]
  exact List.splitOn_intercalate sep hls hne

theorem not_mem_of_mem_segments {l s : List α} (hs : s ∈ segments (· == sep) l) : sep ∉ s := by
  induction l generalizing s with
  | nil =>
    obtain rfl := List.mem_singleton.mp hs
    exact List.not_mem_nil
  | cons a l ih =>
    rw [segments] at hs
    split at hs
    · rcases List.mem_cons.mp hs with rfl | hs
      · exact List.not_mem_nil
      · exact ih hs
    · rename_i ha
      cases hparts : segments (· == sep) l with
      | nil => exact absurd hparts (segments_ne_nil _ _)
      | cons first rest =>
        rw [hparts] at hs ih
        rcases List.mem_cons.mp hs with rfl | hs
        · -- The element in front of the first segment is no separator.
          have hne : sep ≠ a := fun heq => ha (heq ▸ beq_self_eq_true sep)
          exact List.not_mem_cons_of_ne_of_not_mem hne (ih List.mem_cons_self)
        · exact ih (List.mem_cons_of_mem _ hs)

end ProbeLoader.Text
