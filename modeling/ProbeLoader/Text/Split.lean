/-!
# Segments and runs

Cutting a list at its separators, and trimming it at its end. `segments` keeps every part, the
empty ones too, so a list with `n` separators has `n + 1` segments and joining them gives the list
back; `runs` keeps the non-empty ones, the maximal stretches without a separator.
-/

namespace ProbeLoader.Text

variable {α : Type}

/-- Puts one element at the front of the first segment. -/
def consFirst (a : α) : List (List α) → List (List α)
  | [] => [[a]]
  | s :: rest => (a :: s) :: rest

/-- The parts of a list between its separators. -/
def segments (sep : α → Bool) : List α → List (List α)
  | [] => [[]]
  | a :: l => if sep a then [] :: segments sep l else consFirst a (segments sep l)

/-- The maximal non-empty stretches of a list without a separator. -/
def runs (sep : α → Bool) (l : List α) : List (List α) :=
  (segments sep l).filter fun s => !s.isEmpty

/-- A list without the elements at its end that a property holds of. -/
def dropEndWhile (p : α → Bool) (l : List α) : List α :=
  (l.reverse.dropWhile p).reverse

@[simp] theorem segments_nil (sep : α → Bool) : segments sep [] = [[]] := rfl

@[simp] theorem consFirst_ne_nil (a : α) (ls : List (List α)) : consFirst a ls ≠ [] := by
  cases ls <;> simp [consFirst]

@[simp] theorem segments_ne_nil (sep : α → Bool) (l : List α) : segments sep l ≠ [] := by
  cases l with
  | nil => simp
  | cons a l =>
    unfold segments
    split <;> simp

theorem consFirst_append (a : α) {ls : List (List α)} (h : ls ≠ []) (ms : List (List α)) :
    consFirst a (ls ++ ms) = consFirst a ls ++ ms := by
  cases ls with
  | nil => exact absurd rfl h
  | cons s rest => rfl

/-- A separator ends a segment whatever stands around it. -/
theorem segments_append_cons (sep : α → Bool) {b : α} (hb : sep b = true) (l r : List α) :
    segments sep (l ++ b :: r) = segments sep l ++ segments sep r := by
  induction l with
  | nil => simp [segments, hb]
  | cons a l ih =>
    by_cases ha : sep a = true
    · simp [segments, ha, ih]
    · simp [segments, ha, ih, consFirst_append]

/-- A list without separators is its own only segment. -/
theorem segments_eq_singleton (sep : α → Bool) {l : List α} (h : ∀ a ∈ l, sep a = false) :
    segments sep l = [l] := by
  induction l with
  | nil => rfl
  | cons a l ih =>
    have hl := ih fun b hb => h b (List.mem_cons_of_mem a hb)
    simp [segments, h a List.mem_cons_self, hl, consFirst]

end ProbeLoader.Text
