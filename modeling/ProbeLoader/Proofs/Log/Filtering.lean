import ProbeLoader.Log.Console

/-!
# The log under a level without times

Up to the level `info` no times are shown, and whether a record bears its level depends on the
record alone. What such a level shows is then a matter of deleting: each record it lets through is
shown as under any other of these levels, and the others leave no trace.
-/

namespace ProbeLoader.Log

/-- Whether a level lets a record through. -/
def Level.admits (l : Level) (r : Record) : Bool := r.level.rank ≤ l.rank

namespace Console

/-- What a record writes under every level without times that lets it through. -/
def shown (colors : Bool) (r : Record) : String :=
  (if r.level.rank ≤ Level.warn.rank then levelPart ⟨.info, colors⟩ r.level else "") ++
    messagePart r

/-- What is left on the console of the records that a level lets through. -/
def remains (l : Level) (colors : Bool) (rs : List Record) : String :=
  String.join ((rs.filter l.admits).map (shown colors))

section

variable {c : Console} {l l' : Level}

/-- Only the records that the level lets through leave something. -/
theorem render_eq_join_filter (c : Console) (time : String) (rs : List Record) :
    c.render time rs = String.join ((rs.filter c.maxLevel.admits).map (c.piece time)) := by
  induction rs with
  | nil => rfl
  | cons r rs ih =>
    rw [render_cons, ih]
    cases hr : c.maxLevel.admits r with
    | true => rw [List.filter_cons_of_pos hr, List.map_cons, String.join_cons]
    | false =>
      rw [List.filter_cons_of_neg (Bool.eq_false_iff.mp hr), piece_of_not_enabled hr,
        String.empty_append]

theorem showsTime_eq_false (hlevel : c.maxLevel.rank ≤ Level.info.rank) : c.showsTime = false := by
  unfold showsTime
  exact decide_eq_false (Nat.not_le_of_lt (Nat.lt_succ_of_le hlevel))

theorem piece_of_admits (hlevel : c.maxLevel.rank ≤ Level.info.rank) (time : String) {r : Record}
    (hr : c.maxLevel.admits r = true) : c.piece time r = shown c.colors r := by
  have henabled : c.enabled r.level = true := hr
  unfold piece shown showsLevel
  rw [if_pos henabled, showsTime_eq_false hlevel]
  simp only [Bool.or_false, Bool.false_eq_true, if_false, String.empty_append, decide_eq_true_eq]
  rfl

theorem render_eq_remains (hlevel : c.maxLevel.rank ≤ Level.info.rank) (time : String)
    (rs : List Record) : c.render time rs = remains c.maxLevel c.colors rs := by
  unfold remains
  rw [render_eq_join_filter]
  congr 1
  apply List.map_congr_left
  intro r hr
  exact piece_of_admits hlevel time (List.mem_filter.mp hr).2

theorem filter_admits (hle : l.rank ≤ l'.rank) (rs : List Record) :
    (rs.filter l'.admits).filter l.admits = rs.filter l.admits := by
  rw [List.filter_filter]
  apply List.filter_congr
  intro r _
  cases hr : l.admits r with
  | false => rfl
  | true =>
    rw [Bool.true_and]
    exact decide_eq_true (Nat.le_trans (of_decide_eq_true hr) hle)

end

end Console

end ProbeLoader.Log
