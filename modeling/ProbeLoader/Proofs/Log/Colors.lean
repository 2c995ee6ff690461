import ProbeLoader.Text.Digits
import ProbeLoader.Text.Painted
import ProbeLoader.Proofs.Log.Pieces
import Mathlib.Data.List.Basic

/-!
# Colours in the log

Colours carry no content. Every escape sequence of the log stands right before or behind the name
of a level, and the one behind it takes the colour back before anything else is written. So a
terminal shows the names of levels in colour and nothing else, and without its escape sequences the
log is what it would be without a terminal.
-/

namespace ProbeLoader.Log

open Text

/-- The parts of what a record writes, where escape sequences stand around the name of its level at
most. -/
structure IsWrapped (max : Level) (colored : Bool) (time : String) (r : Record)
    (stamp field last : String) : Prop extends IsPiece max colored time r stamp field last where
  stamp_plain : Console.escape ∉ stamp.toList
  last_plain : Console.escape ∉ last.toList
  field_wrapped : Console.escape ∈ field.toList →
    field = Console.reset ++ Console.control (Console.colorCode r.level) ++
      Console.levelField r.level ++ Console.reset

/-- What a terminal shows of a record: the name of its level in colour, if colours are used, and
the rest without. -/
inductive IsPainting (max : Level) (colored : Bool) (time : String) (r : Record) :
    List (Char × Attributes) → Prop where
  | intro {stamp field last : String} : IsPiece max false time r stamp field last →
      IsPainting max colored time r (paint [] stamp ++
        paint (if colored then [(Console.colorCode r.level).toList] else []) field ++
        paint [] last)

/-- What colours do to the log of some records. -/
structure ColorsApart (e : Environment) (capacity : Nat) (max : Level) (time : String)
    (rs : List Record) : Prop where
  /-- Without its escape sequences the log is that of any run without a terminal. -/
  erased : ∀ (e' : Environment) (capacity' : Nat), e'.isTerminal = false →
    visible (e.stderr capacity max time rs) = e'.stderr capacity' max time rs
  allowed : Console.escape ∈ (e.stderr capacity max time rs).toList →
    e.isTerminal = true ∧ (∃ kind, e.term = some kind ∧ kind ≠ Utf8.encode "dumb") ∧
      e.noColor = none
  wrapped : ∃ piece : Record → String,
    e.stderr capacity max time rs = String.join ((rs.filter max.admits).map piece) ∧
    ∀ r ∈ rs, max.admits r = true → ∃ stamp field last, piece r = stamp ++ field ++ last ∧
      IsWrapped max e.terminal.usesColors time r stamp field last
  painted : ∃ painting : Record → List (Char × Attributes),
    Pen.painted (.resting []) (e.stderr capacity max time rs).toList =
      (rs.filter max.admits).flatMap painting ∧
    ∀ r, IsPainting max e.terminal.usesColors time r (painting r)

namespace Console

variable {max : Level} {colored : Bool} {time : String} {r : Record} {attributes : Attributes}

/-- The time in front of a record, if it is shown. -/
def stamp (c : Console) (time : String) : String := if c.showsTime then time ++ " " else ""

/-- The name of a level, if it is shown. -/
def field (c : Console) (l : Level) : String := if c.showsLevel l then levelField l else ""

/-- The attributes that the name of a level is shown with. -/
def inks (c : Console) (l : Level) : Attributes :=
  if c.colors then [(colorCode l).toList] else []

/-- What a terminal shows of a record that is let through. -/
def painting (c : Console) (time : String) (r : Record) : List (Char × Attributes) :=
  paint [] (c.stamp time) ++ paint (c.inks r.level) (c.field r.level) ++ paint [] (messagePart r)

theorem isPainting (max : Level) (colored : Bool) (time : String) (r : Record) :
    IsPainting max colored time r (painting ⟨max, colored⟩ time r) :=
  .intro (isPiece r)

theorem toList_control (code : String) :
    (control code).toList = escape :: '[' :: (code.toList ++ ['m']) := by
  simp [control]

theorem escape_not_mem_levelField (l : Level) : escape ∉ (levelField l).toList := by
  cases l <;> decide

theorem escape_not_mem_messagePart (hmessage : escape ∉ r.message.toList) :
    escape ∉ (messagePart r).toList := by
  unfold escape at hmessage ⊢
  unfold messagePart
  split <;> simp [libraryTarget, hmessage]

theorem isDigit_of_mem_colorCode (l : Level) : ∀ c ∈ (colorCode l).toList, c.isDigit = true := by
  rw [← List.all_eq_true]
  cases l <;> decide

theorem painted_text {s : String} (hs : escape ∉ s.toList) (rest : List Char) :
    Pen.painted (.resting attributes) (s.toList ++ rest) =
      paint attributes s ++ Pen.painted (.resting attributes) rest :=
  Pen.painted_append hs rest

theorem painted_control {code : String} (hcode : ∀ c ∈ code.toList, c.isDigit = true)
    (rest : List Char) :
    Pen.painted (.resting attributes) ((control code).toList ++ rest) =
      Pen.painted (.resting (attributes.select code.toList)) rest := by
  rw [toList_control, List.cons_append, List.cons_append, List.append_assoc, List.singleton_append]
  exact Pen.painted_sequence hcode rest

/-- Behind a reset no attribute is in force. -/
theorem painted_reset (rest : List Char) :
    Pen.painted (.resting attributes) (reset.toList ++ rest) =
      Pen.painted (.resting []) rest :=
  painted_control (List.all_eq_true.mp (by decide)) rest

/-- The name of a level is shown in its colour, and the colour ends with it. -/
theorem painted_levelPart (c : Console) (l : Level) (rest : List Char) :
    Pen.painted (.resting []) ((c.levelPart l).toList ++ rest) =
      paint (c.inks l) (levelField l) ++ Pen.painted (.resting []) rest := by
  have hfield := escape_not_mem_levelField l
  unfold levelPart inks
  cases c.colors with
  | false => exact painted_text hfield rest
  | true =>
    have hselect : Attributes.select [] (colorCode l).toList = [(colorCode l).toList] := by
      cases l <;> decide
    simp only [if_true, String.toList_append, List.append_assoc]
    rw [painted_reset, painted_control (isDigit_of_mem_colorCode l), hselect, painted_text hfield,
      painted_reset]

theorem escape_not_mem_stamp (c : Console) (htime : escape ∉ time.toList) :
    escape ∉ (c.stamp time).toList := by
  unfold escape at htime ⊢
  unfold stamp
  split <;> simp [htime]

theorem painted_field (c : Console) (l : Level) (rest : List Char) :
    Pen.painted (.resting []) ((if c.showsLevel l then c.levelPart l else "").toList ++ rest) =
      paint (c.inks l) (c.field l) ++ Pen.painted (.resting []) rest := by
  unfold field
  split
  · exact painted_levelPart c l rest
  · rfl

theorem painted_piece (c : Console) (htime : escape ∉ time.toList)
    (hmessage : escape ∉ r.message.toList) (hadmits : c.maxLevel.admits r = true)
    (rest : List Char) :
    Pen.painted (.resting []) ((c.piece time r).toList ++ rest) =
      c.painting time r ++ Pen.painted (.resting []) rest := by
  have hpiece : c.piece time r = c.stamp time ++
      (if c.showsLevel r.level then c.levelPart r.level else "") ++ messagePart r :=
    piece_of_admitted hadmits
  have hstamp := escape_not_mem_stamp c htime
  have hlast := escape_not_mem_messagePart hmessage
  rw [hpiece, String.toList_append, String.toList_append, List.append_assoc, List.append_assoc,
    painted_text hstamp, painted_field, painted_text hlast]
  simp only [painting, List.append_assoc]

/-- A terminal shows record after record, none of which has to do with the ones before it. -/
theorem painted_render (c : Console) (htime : escape ∉ time.toList) (rs : List Record)
    (hrs : ∀ r ∈ rs, escape ∉ r.message.toList) :
    Pen.painted (.resting []) (c.render time rs).toList =
      (rs.filter c.maxLevel.admits).flatMap (c.painting time) := by
  induction rs with
  | nil => rfl
  | cons r rs ih =>
    have hrest := ih fun s hs => hrs s (List.mem_cons_of_mem r hs)
    rw [render_cons]
    cases hr : c.maxLevel.admits r with
    | false =>
      have hnone : c.piece time r = "" := piece_of_not_admitted hr
      rw [hnone, String.empty_append, hrest, List.filter_cons_of_neg (Bool.eq_false_iff.mp hr)]
    | true =>
      have hmessage := hrs r List.mem_cons_self
      rw [String.toList_append, painted_piece c htime hmessage hr, hrest,
        List.filter_cons_of_pos hr, List.flatMap_cons]

/-- Without colours a terminal shows what is written. -/
theorem map_fst_painting (c : Console) (time : String) (r : Record) :
    (c.painting time r).map Prod.fst = (c.stamp time ++ c.field r.level ++ messagePart r).toList := by
  simp [painting]

theorem visible_render (c : Console) (htime : escape ∉ time.toList) (rs : List Record)
    (hrs : ∀ r ∈ rs, escape ∉ r.message.toList) :
    visible (c.render time rs) = render ⟨c.maxLevel, false⟩ time rs := by
  unfold visible
  rw [painted_render c htime rs hrs, render_eq_join_filter]
  apply String.toList_inj.mp
  rw [String.toList_ofList, List.map_flatMap, String.toList_join, List.flatMap_map]
  apply List.flatMap_congr
  intro r hr
  have hpiece : piece ⟨c.maxLevel, false⟩ time r = c.stamp time ++ c.field r.level ++ messagePart r :=
    piece_of_admitted (List.mem_filter.mp hr).2
  rw [map_fst_painting, hpiece]

/-- The escape sequences of a record stand around the name of its level. -/
theorem isWrapped (htime : escape ∉ time.toList) (hmessage : escape ∉ r.message.toList) :
    IsWrapped max colored time r (stamp ⟨max, colored⟩ time)
      (if showsLevel ⟨max, colored⟩ r.level then levelPart ⟨max, colored⟩ r.level else "")
      (messagePart r) := by
  refine ⟨isPiece r, escape_not_mem_stamp _ htime, escape_not_mem_messagePart hmessage, ?_⟩
  intro hfield
  split at hfield
  · rename_i hshows
    rw [if_pos hshows]
    unfold levelPart at hfield ⊢
    cases colored with
    | false => exact absurd hfield (escape_not_mem_levelField r.level)
    | true => rfl
  · exact absurd hfield List.not_mem_nil

theorem isDecimal_padded (width n : Nat) : IsDecimal n (padded width n) := by
  unfold padded
  rw [Nat.toString_eq_repr, Nat.toList_repr]
  exact ⟨_, String.toList_ofList⟩

theorem escape_not_mem_timeOfDay (micros : Nat) : escape ∉ (timeOfDay micros).toList := by
  have hpadded (width n : Nat) := (isDecimal_padded width n).not_mem (c := escape) rfl
  unfold escape at hpadded ⊢
  simp [timeOfDay, toString, hpadded]

end Console

namespace Environment

variable {e : Environment}

theorem usesColors_cases (hcolors : e.terminal.usesColors = true) :
    e.isTerminal = true ∧ (∃ kind, e.term = some kind ∧ kind ≠ Utf8.encode "dumb") ∧
      e.noColor = none := by
  rw [usesColors_terminal, Bool.and_eq_true] at hcolors
  obtain ⟨hasked, hgiven⟩ := hcolors
  unfold asksForColors at hasked
  unfold givesColors at hgiven
  rw [Bool.and_eq_true] at hasked
  split at hgiven
  · rename_i kind hterm
    rw [Bool.and_eq_true, bne_iff_ne, Option.isNone_iff_eq_none] at hgiven
    exact ⟨hasked.1, ⟨kind, hterm, hgiven.1⟩, hgiven.2⟩
  · exact nomatch hgiven

theorem usesColors_of_not_isTerminal (hterminal : e.isTerminal = false) :
    e.terminal.usesColors = false := by
  rw [usesColors_terminal]
  simp [asksForColors, hterminal]

/-- Colours are used where the environment allows it, for the names of levels only, and they change
nothing else. -/
theorem stderr_colorsApart (e : Environment) (capacity : Nat) (max : Level) {time : String}
    {rs : List Record} (htime : Console.escape ∉ time.toList)
    (hrs : ∀ r ∈ rs, Console.escape ∉ r.message.toList) :
    ColorsApart e capacity max time rs := by
  have hvisible := Console.visible_render ⟨max, e.terminal.usesColors⟩ htime rs hrs
  have hstderr := stderr_eq_render e capacity max time rs
  rw [← hstderr] at hvisible
  refine ⟨?_, ?_, ?_, ?_⟩
  · intro e' capacity' hterminal
    rw [hvisible, stderr_eq_render, usesColors_of_not_isTerminal hterminal]
  · intro hescape
    cases hcolors : e.terminal.usesColors with
    | true => exact usesColors_cases hcolors
    | false =>
      rw [stderr_eq_render, hcolors, ← hvisible] at hescape
      exact absurd hescape (escape_not_mem_visible _)
  · refine ⟨Console.piece ⟨max, e.terminal.usesColors⟩ time, ?_, ?_⟩
    · rw [stderr_eq_render, Console.render_eq_join_filter]
    · intro r hr hadmits
      exact ⟨_, _, _, Console.piece_of_admitted hadmits, Console.isWrapped htime (hrs r hr)⟩
  · refine ⟨Console.painting ⟨max, e.terminal.usesColors⟩ time, ?_, Console.isPainting max _ time⟩
    rw [stderr_eq_render]
    exact Console.painted_render ⟨max, e.terminal.usesColors⟩ htime rs hrs

/-- A forwarded message may leave its line open. What follows on that line is not coloured by it. -/
theorem stderr_colorsApart_open :
    let e : Environment := ⟨true, some (Utf8.encode "xterm"), none⟩
    let rs : List Record := [⟨.warn, "libbpf", "loading"⟩, ⟨.debug, "loader", "resolved"⟩]
    (∀ r ∈ rs, Console.escape ∉ r.message.toList) ∧
      visible (e.stderr 8 .debug (Console.timeOfDay 0) rs) =
        "00:00:00.000000 WARN  libbpf: loading00:00:00.000000 DEBUG resolved\n" := by
  intro e rs
  have hrs : ∀ r ∈ rs, Console.escape ∉ r.message.toList := by decide
  have hapart := stderr_colorsApart e 8 .debug (Console.escape_not_mem_timeOfDay 0) hrs
  refine ⟨hrs, (hapart.erased { e with isTerminal := false } 1 rfl).trans ?_⟩
  decide +kernel

end Environment

end ProbeLoader.Log
