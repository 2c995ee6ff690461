import ProbeLoader.Log.Writer
import ProbeLoader.Proofs.Text.Utf8

/-!
# What the buffer lets through

Whatever the size of the buffer, writing adds a text to what was written before and takes nothing
away, so a record adds its own piece. Nothing is held between two records, and what a sequence of
records leaves on standard error is what the console renders of it, in colour when both sides
agree.
-/

namespace ProbeLoader.Log

namespace Outlet

/-- From the first stream to the second one a text was written. -/
structure Adds (o o' : Outlet) (text : String) : Prop where
  givesColors : o'.givesColors = o.givesColors
  contents : o'.contents = o.contents ++ text

variable {o o' o'' : Outlet} {s t : String}

namespace Adds

theorem refl (o : Outlet) : Adds o o "" := ⟨rfl, String.append_empty.symm⟩

theorem trans (h : Adds o o' s) (h' : Adds o' o'' t) : Adds o o'' (s ++ t) := by
  refine ⟨h'.givesColors.trans h.givesColors, ?_⟩
  rw [h'.contents, h.contents, String.append_assoc]

theorem flush_right (h : Adds o o' s) : Adds o o'.flush s :=
  ⟨h.givesColors, String.append_empty.trans h.contents⟩

theorem of_flush (h : Adds o.flush o' s) : Adds o o' s := by
  refine ⟨h.givesColors, ?_⟩
  rw [h.contents]
  exact congrArg (· ++ s) String.append_empty

end Adds

theorem hold_adds (o : Outlet) (text : String) : Adds o (o.hold text) text :=
  ⟨rfl, (String.append_assoc ..).symm⟩

theorem pass_adds {text : String} (h : o.held = "" ∨ text = "") : Adds o (o.pass text) text := by
  refine ⟨rfl, ?_⟩
  unfold contents pass
  rcases h with h | h <;> simp [h]

/-- A text overtakes nothing: it is passed on at once only when nothing is held, or when it is
empty itself. -/
theorem write_adds (o : Outlet) (text : String) : Adds o (o.write text) text := by
  unfold write
  split
  · exact o.hold_adds text
  · rename_i hroom
    split
    · split
      · exact .of_flush (pass_adds (.inl rfl))
      · exact .of_flush (hold_adds _ text)
    · split
      · apply pass_adds
        simp only [← String.utf8ByteSize_eq_zero_iff]
        unfold room at *
        omega
      · exact o.hold_adds text

/-- A console as it is seen through a stream, which may give no colours. -/
def seen (c : Console) (o : Outlet) : Console := { c with colors := c.colors && o.givesColors }

theorem setColor_adds (o : Outlet) (l : Level) : Adds o (o.setColor l)
    (if o.givesColors then Console.reset ++ Console.control (Console.colorCode l) else "") := by
  unfold setColor
  split
  · exact o.write_adds _
  · exact .refl o

theorem resetColor_adds (o : Outlet) :
    Adds o o.resetColor (if o.givesColors then Console.reset else "") := by
  unfold resetColor
  split
  · exact o.write_adds _
  · exact .refl o

variable (c : Console) (time : String)

theorem writeTime_adds (o : Outlet) :
    Adds o (writeTime c time o) (if c.showsTime then time ++ " " else "") := by
  unfold writeTime
  split
  · exact o.write_adds _
  · exact .refl o

/-- Colours that are asked for but not given leave the plain field. -/
theorem writeLevel_adds (o : Outlet) (l : Level) : Adds o (writeLevel c l o)
    (if c.showsLevel l then (seen c o).levelPart l else "") := by
  unfold writeLevel
  split
  · cases hasked : c.colors with
    | false =>
      have hplain : (seen c o).levelPart l = Console.levelField l := by
        simp [seen, Console.levelPart, hasked]
      rw [hplain]
      exact o.write_adds _
    | true =>
      have hset := o.setColor_adds l
      have hfield := hset.trans (write_adds _ (Console.levelField l))
      have hreset := hfield.trans (resetColor_adds _)
      rw [hfield.givesColors] at hreset
      cases hgiven : o.givesColors <;>
        simpa [seen, Console.levelPart, hasked, hgiven] using hreset
  · exact .refl o

theorem writeMessage_adds (o : Outlet) (r : Record) :
    Adds o (writeMessage r o) (Console.messagePart r) := by
  unfold writeMessage Console.messagePart
  split
  · exact (o.write_adds _).trans (write_adds _ _)
  · exact (o.write_adds _).trans (write_adds _ _)

/-- A record adds its own piece to what was written before it. -/
theorem put_adds (o : Outlet) (r : Record) :
    Adds o (put c time o r) ((seen c o).piece time r) := by
  have henabled : (seen c o).enabled r.level = c.enabled r.level := rfl
  unfold put Console.piece
  rw [henabled]
  split
  · have htime := writeTime_adds c time o
    have hlevel := writeLevel_adds c (writeTime c time o) r.level
    have hseen : seen c (writeTime c time o) = seen c o := by
      unfold seen
      rw [htime.givesColors]
    rw [hseen] at hlevel
    exact ((htime.trans hlevel).trans (writeMessage_adds _ r)).flush_right
  · exact .refl o

theorem putAll_adds (o : Outlet) (rs : List Record) :
    Adds o (putAll c time o rs) ((seen c o).render time rs) := by
  induction rs generalizing o with
  | nil => exact .refl o
  | cons r rs ih =>
    have hput := put_adds c time o r
    have hseen : seen c (put c time o r) = seen c o := by
      unfold seen
      rw [hput.givesColors]
    have hrest := ih (put c time o r)
    rw [hseen] at hrest
    rw [Console.render_cons]
    exact hput.trans hrest

theorem held_put (r : Record) (h : o.held = "") : (put c time o r).held = "" := by
  unfold put
  split
  · rfl
  · exact h

theorem held_putAll (rs : List Record) (h : o.held = "") : (putAll c time o rs).held = "" := by
  induction rs generalizing o with
  | nil => exact h
  | cons r rs ih => exact ih (held_put c time r h)

end Outlet

namespace Environment

variable (e : Environment)

/-- The log and the stream agree on colours exactly where a console uses them. -/
theorem usesColors_terminal : e.terminal.usesColors = (e.asksForColors && e.givesColors) := by
  obtain ⟨isTerminal, term, noColor⟩ := e
  unfold terminal Terminal.ofEnvironment Terminal.usesColors asksForColors givesColors
  cases term with
  | none => simp
  | some kind =>
    cases hkind : Utf8.decode? kind with
    | none => simp [hkind]
    | some text =>
      -- A kind that is text is "dumb" as text iff it is as bytes.
      have hbytes : (kind != Utf8.encode "dumb") = (text != "dumb") := by
        rw [Bool.eq_iff_iff, bne_iff_ne, bne_iff_ne, ne_eq, ne_eq, ← Utf8.decode?_eq_some_iff, hkind,
          Option.some.injEq]
      simp only [Option.bind_some, hkind, hbytes]
      cases noColor <;> cases isTerminal <;> simp

theorem stderr_eq_render (capacity : Nat) (level : Level) (time : String) (rs : List Record) :
    e.stderr capacity level time rs =
      Console.render ⟨level, e.terminal.usesColors⟩ time rs := by
  have hadds := Outlet.putAll_adds ⟨level, e.asksForColors⟩ time (.empty capacity e.givesColors) rs
  have hempty : (Outlet.empty capacity e.givesColors).held = "" := rfl
  have hheld := Outlet.held_putAll ⟨level, e.asksForColors⟩ time rs hempty
  have hcontents := hadds.contents
  unfold Outlet.contents at hcontents
  rw [hheld, String.append_empty] at hcontents
  rw [usesColors_terminal]
  exact hcontents.trans String.empty_append

end Environment

end ProbeLoader.Log
