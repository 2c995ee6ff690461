import ProbeLoader.Proofs.Log.Filtering
import ProbeLoader.Proofs.Log.Writing

/-!
# The log, record by record

Standard error is a sequence of pieces, one for each record that the level admits, and a piece
depends on its record and the settings only. Where every piece is stamped, bears its level and
ends with a line of its own, the records can be read back: the time has a known width, the level a
fixed one, and the message goes up to the end of the line, whatever it looks like.
-/

namespace ProbeLoader.Log

def Level.IsDetailed (l : Level) : Prop := l = .debug ∨ l = .trace

/-- A record that takes one line of the log. -/
def Record.IsLine (r : Record) : Prop := r.target ≠ libraryTarget ∧ '\n' ∉ r.message.toList

/-- The parts of what one record writes. -/
structure IsPiece (max : Level) (colored : Bool) (time : String) (r : Record)
    (stamp field last : String) : Prop where
  stamped : max.IsDetailed → stamp = time ++ " "
  unstamped : ¬ max.IsDetailed → stamp = ""
  leveled : r.level = .error ∨ r.level = .warn ∨ max.IsDetailed →
    field = Console.levelPart ⟨max, colored⟩ r.level
  unleveled : ¬ (r.level = .error ∨ r.level = .warn ∨ max.IsDetailed) → field = ""
  line : r.target ≠ "libbpf" → last = r.message ++ "\n"
  forwarded : r.target = "libbpf" → last = "libbpf: " ++ r.message

/-- The levels and messages in a log whose lines begin with a time of the given width. -/
def entries (width : Nat) : List Char → List (Level × String)
  | [] => []
  | _ :: cs =>
    -- The first character belongs to the time or is the space after it.
    let line := cs.drop width
    let text := line.drop 6
    let message := text.takeWhile (· != '\n')
    match Level.all.find? fun l => (Console.levelField l).toList == line.take 6 with
    | none => []
    | some l => (l, String.ofList message) :: entries width (text.drop (message.length + 1))
termination_by cs => cs.length
decreasing_by
  simp only [List.length_drop, List.length_cons]
  omega

/-- What a log is that is written record by record. -/
structure RecordByRecord (max : Level) (colored : Bool) (time : String)
    (piece : Record → String) (out : List Record → String) : Prop where
  pieces : ∀ rs, out rs = String.join ((rs.filter max.admits).map piece)
  parts : ∀ r, max.admits r = true →
    ∃ stamp field last, piece r = stamp ++ field ++ last ∧
      IsPiece max colored time r stamp field last
  without : ∀ rs r ss, max.admits r = false → out (rs ++ r :: ss) = out (rs ++ ss)
  append : ∀ rs ss, out (rs ++ ss) = out rs ++ out ss
  readable : max.IsDetailed → colored = false → ∀ rs,
    (∀ r ∈ rs, max.admits r = true → r.IsLine) →
    entries time.length (out rs).toList =
      (rs.filter max.admits).map fun r => (r.level, r.message)

namespace Console

variable {max : Level} {colored : Bool} {time : String}

theorem showsTime_iff {c : Console} : c.showsTime = true ↔ c.maxLevel.IsDetailed := by
  unfold showsTime Level.IsDetailed
  cases c.maxLevel <;> decide

theorem showsLevel_iff {c : Console} {l : Level} :
    c.showsLevel l = true ↔ l = .error ∨ l = .warn ∨ c.maxLevel.IsDetailed := by
  unfold showsLevel
  rw [Bool.or_eq_true, showsTime_iff, ← or_assoc]
  cases l <;> simp [Level.rank]

theorem length_levelField (l : Level) : (levelField l).toList.length = 6 := by
  cases l <;> rfl

theorem find?_levelField (l : Level) :
    Level.all.find? (fun l' => (levelField l').toList == (levelField l).toList) = some l := by
  cases l <;> rfl

theorem isPiece (r : Record) : IsPiece max colored time r
    (if showsTime ⟨max, colored⟩ then time ++ " " else "")
    (if showsLevel ⟨max, colored⟩ r.level then levelPart ⟨max, colored⟩ r.level else "")
    (messagePart r) := by
  refine ⟨?_, ?_, ?_, ?_, ?_, ?_⟩
  · intro h
    exact if_pos (showsTime_iff.mpr h)
  · intro h
    exact if_neg (mt showsTime_iff.mp h)
  · intro h
    exact if_pos (showsLevel_iff.mpr h)
  · intro h
    exact if_neg (mt showsLevel_iff.mp h)
  · intro h
    exact if_neg h
  · intro h
    exact if_pos h

theorem piece_of_admitted {r : Record} (h : max.admits r = true) :
    piece ⟨max, colored⟩ time r =
      (if showsTime ⟨max, colored⟩ then time ++ " " else "") ++
      (if showsLevel ⟨max, colored⟩ r.level then levelPart ⟨max, colored⟩ r.level else "") ++
      messagePart r :=
  if_pos h

theorem piece_of_not_admitted {r : Record} (h : max.admits r = false) :
    piece ⟨max, colored⟩ time r = "" := by
  have henabled : enabled ⟨max, colored⟩ r.level = false := h
  exact piece_of_not_enabled henabled time

end Console

variable {width : Nat}

theorem entries_nil : entries width [] = [] := by
  rw [entries]

/-- A line is read by widths, so it does not matter what its message looks like. -/
theorem entries_line {stamp : List Char} (hstamp : stamp.length = width + 1) (l : Level)
    {message : List Char} (hmessage : '\n' ∉ message) (rest : List Char) :
    entries width (stamp ++ ((Console.levelField l).toList ++ (message ++ '\n' :: rest))) =
      (l, String.ofList message) :: entries width rest := by
  obtain ⟨c, cs, rfl⟩ := List.exists_cons_of_length_eq_add_one hstamp
  have hline : ∀ tail, (cs ++ tail).drop width = tail := fun tail =>
    List.drop_left' (Nat.succ.inj hstamp)
  have htake : (message ++ '\n' :: rest).takeWhile (· != '\n') = message := by
    rw [List.takeWhile_append_of_pos, List.takeWhile_cons_of_neg, List.append_nil]
    · decide
    · intro a ha
      exact bne_iff_ne.mpr fun heq => hmessage (heq ▸ ha)
  have hrest : (message ++ '\n' :: rest).drop (message.length + 1) = rest :=
    List.drop_length_add_append ..
  rw [List.cons_append, entries]
  simp only [hline, List.take_left' (Console.length_levelField l),
    List.drop_left' (Console.length_levelField l), Console.find?_levelField, htake, hrest]

variable {max : Level} {time : String}

theorem toList_piece (hmax : max.IsDetailed) {r : Record} (hadmits : max.admits r = true)
    (htarget : r.target ≠ libraryTarget) :
    (Console.piece ⟨max, false⟩ time r).toList =
      (time.toList ++ [' ']) ++
        ((Console.levelField r.level).toList ++ (r.message.toList ++ ['\n'])) := by
  have hparts : IsPiece max false time r _ _ _ := Console.isPiece r
  rw [Console.piece_of_admitted hadmits, hparts.stamped hmax, hparts.leveled (.inr (.inr hmax)),
    hparts.line htarget]
  simp [Console.levelPart]

theorem entries_render (hmax : max.IsDetailed) (rs : List Record)
    (hlines : ∀ r ∈ rs, max.admits r = true → r.IsLine) :
    entries time.length (Console.render ⟨max, false⟩ time rs).toList =
      (rs.filter max.admits).map fun r => (r.level, r.message) := by
  induction rs with
  | nil => exact entries_nil
  | cons r rs ih =>
    have hrest := ih fun s hs => hlines s (List.mem_cons_of_mem _ hs)
    rw [Console.render_cons]
    cases hr : max.admits r with
    | false =>
      rw [Console.piece_of_not_admitted hr, String.empty_append, hrest,
        List.filter_cons_of_neg (Bool.eq_false_iff.mp hr)]
    | true =>
      obtain ⟨htarget, hmessage⟩ := hlines r List.mem_cons_self hr
      have hstamp : (time.toList ++ [' ']).length = time.length + 1 := by
        rw [List.length_append, String.length_toList, List.length_singleton]
      have hread := entries_line hstamp r.level hmessage
        (Console.render ⟨max, false⟩ time rs).toList
      rw [hrest, String.ofList_toList] at hread
      rw [List.filter_cons_of_pos hr, List.map_cons, ← hread, String.toList_append,
        toList_piece hmax hr htarget]
      simp only [List.append_assoc, List.cons_append, List.nil_append]

/-- A message may look like the beginning of a line. -/
example : entries 6 "<time> WARN  <time> ERROR x\n<time> DEBUG \n".toList =
    [(.warn, "<time> ERROR x"), (.debug, "")] := by
  cbv

namespace Environment

/-- The log is written record by record, whatever the environment and the size of the buffer. -/
theorem stderr_recordByRecord (e : Environment) (capacity : Nat) (max : Level) (time : String) :
    RecordByRecord max e.terminal.usesColors time
      (Console.piece ⟨max, e.terminal.usesColors⟩ time) (e.stderr capacity max time) := by
  refine ⟨?_, ?_, ?_, ?_, ?_⟩
  · intro rs
    rw [stderr_eq_render, Console.render_eq_join_filter]
  · intro r hr
    exact ⟨_, _, _, Console.piece_of_admitted hr, Console.isPiece r⟩
  · intro rs r ss hr
    rw [stderr_eq_render, stderr_eq_render, Console.render_append, Console.render_append,
      Console.render_cons, Console.piece_of_not_admitted hr, String.empty_append]
  · intro rs ss
    simp only [stderr_eq_render]
    exact Console.render_append ..
  · intro hmax hcolored rs hlines
    rw [stderr_eq_render, hcolored]
    exact entries_render hmax rs hlines

end Environment

end ProbeLoader.Log
