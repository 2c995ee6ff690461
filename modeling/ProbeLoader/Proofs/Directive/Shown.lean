import ProbeLoader.Proofs.Config.Written
import ProbeLoader.Proofs.Job.Accounting

/-!
# Directives as they are shown

A directive is shown as its fields with arrows, colons and parentheses between them, all of which
may stand in the fields too. What a field that was read cannot have is white space, so the blanks
tell the fields apart: directives that look the same have the same fields. No line feed is white
space for that reason either, and each line of the output that shows a directive is one line.
-/

namespace ProbeLoader

open Text

/-- A directive that some configuration is read as having. -/
def Directive.IsRead (d : Directive) : Prop :=
  ∃ (s : Stream) (source : ConfigSource) (cap : Option Nat) (ds : List Directive),
    s.directives source cap = .ok ds ∧ d ∈ ds

/-- What the lines that show a directive begin with. -/
def showingMarks : List String := ["  Parsed: ", "["]

/-- Whether a line of the output is one of those that show a directive. -/
def Shows (line : String) : Prop := ∃ mark ∈ showingMarks, mark.toList <+: line.toList

/-- The lines that show a directive: where it was parsed, and where it is announced by a number. -/
inductive IsEntry (d : Directive) : String → Prop where
  | parsed : IsEntry d s!"  Parsed: {d.shown}"
  | announced (number total : Nat) :
      IsEntry d s!"[{number}/{total}] Attaching probe: {d.shown}"

theorem IsField.isRun {limit : Nat} {s : String} (hs : IsField limit s) :
    IsRun isSeparator s.toList :=
  (Line.isRun_iff s).mpr ⟨hs.ne, hs.free⟩

namespace ProbeKind

theorem name_injective {k k' : ProbeKind} (h : k.name = k'.name) : k = k' := by
  have hnames := congrArg ofName? h
  rw [ofName?_name, ofName?_name] at hnames
  exact Option.some.inj hnames

theorem colon_not_mem_name (k : ProbeKind) : ':' ∉ k.name.toList := by
  cases k <;> decide

end ProbeKind

namespace Directive

variable {d e : Directive} {p q : String}

/-- The kind and the target as they are shown, which no blank comes in between of. -/
def placed (d : Directive) : String := d.kind.name ++ ":" ++ d.target

theorem toList_placed (d : Directive) :
    d.placed.toList = d.kind.name.toList ++ (':' :: d.target.toList) := by
  simp [placed]

theorem toList_shown (hp : d.pinPath = .ofString p) : d.shown.toList =
    d.programName.toList ++ (' ' :: ("-> ".toList ++
      (d.placed.toList ++ (' ' :: ("(pin: ".toList ++ (p.toList ++ [')'])))))) := by
  simp [shown, placed, hp, Path.shown, Path.ofString, toString]

theorem IsWritable.isRun_placed (hd : d.IsWritable) : IsRun isSeparator d.placed.toList := by
  have hkind := (Line.isField_kind d.kind).isRun
  have htarget := hd.target.isRun
  rw [toList_placed]
  refine ⟨List.append_ne_nil_of_left_ne_nil hkind.1 _, ?_⟩
  intro c hc
  rcases List.mem_append.mp hc with hc | hc
  · exact hkind.2 c hc
  · rcases List.mem_cons.mp hc with rfl | hc
    · rfl
    · exact htarget.2 c hc

theorem placed_injective (h : d.placed = e.placed) : d.kind = e.kind ∧ d.target = e.target := by
  have hfree (k : ProbeKind) : ∀ c ∈ k.name.toList, (c != ':') = true := by
    intro c hc
    exact bne_iff_ne.mpr (ne_of_mem_of_not_mem hc k.colon_not_mem_name)
  have hcolon (cs : List Char) : ∀ c ∈ (':' :: cs).head?, (c != ':') = false := by
    rintro c ⟨⟩
    rfl
  have heq := congrArg String.toList h
  rw [toList_placed, toList_placed] at heq
  obtain ⟨hkind, htarget⟩ :=
    append_inj_of_boundary (hfree d.kind) (hfree e.kind) (hcolon _) (hcolon _) heq
  exact ⟨ProbeKind.name_injective (String.toList_inj.mp hkind),
    String.toList_inj.mp (List.cons.inj htarget).2⟩

/-- Directives whose fields have no white space look the same only if they have the same fields. -/
theorem IsWritable.eq_of_shown (hd : d.IsWritable) (he : e.IsWritable) (h : d.shown = e.shown) :
    d.programName = e.programName ∧ d.kind = e.kind ∧ d.target = e.target ∧
      d.pinPath = e.pinPath := by
  obtain ⟨p, hp, _⟩ := hd.pinPath
  obtain ⟨q, hq, _⟩ := he.pinPath
  have hblank (cs : List Char) : Breaks isSeparator (' ' :: cs) := by
    rintro c ⟨⟩
    rfl
  have heq := congrArg String.toList h
  rw [toList_shown hp, toList_shown hq] at heq
  obtain ⟨hprogram, hrest⟩ := run_inj hd.programName.isRun he.programName.isRun
    (hblank _) (hblank _) heq
  have harrow := List.append_cancel_left (List.cons.inj hrest).2
  obtain ⟨hplaced, hrest⟩ := run_inj hd.isRun_placed he.isRun_placed (hblank _) (hblank _) harrow
  have hpin := List.append_cancel_left (List.cons.inj hrest).2
  have hpath := List.append_cancel_right hpin
  obtain ⟨hkind, htarget⟩ := placed_injective (String.toList_inj.mp hplaced)
  refine ⟨String.toList_inj.mp hprogram, hkind, htarget, ?_⟩
  rw [hp, hq, String.toList_inj.mp hpath]

theorem IsWritable.newline_not_mem_shown (hd : d.IsWritable) : '\n' ∉ d.shown.toList := by
  obtain ⟨p, hp, hfield⟩ := hd.pinPath
  rw [toList_shown hp, toList_placed]
  simp [hd.programName.newline_not_mem, (Line.isField_kind d.kind).newline_not_mem,
    hd.target.newline_not_mem, hfield.newline_not_mem]

end Directive

theorem newline_not_mem_toDigits (n : Nat) : '\n' ∉ Nat.toDigits 10 n := by
  intro hmem
  have hdigit := Nat.isDigit_of_mem_toDigits (by decide) (by decide) hmem
  exact absurd hdigit (by decide)

theorem IsEntry.newline_not_mem {d : Directive} {line : String} (hline : IsEntry d line)
    (hd : d.IsWritable) : '\n' ∉ line.toList := by
  have hshown := hd.newline_not_mem_shown
  cases hline with
  | parsed => simp [toString, hshown]
  | announced number total => simp [toString, newline_not_mem_toDigits, hshown]

/-- A line does not show a directive if its beginning and the marks are no beginnings of each
other. -/
theorem not_shows_append {front : String} (hfront : ∀ mark ∈ showingMarks,
    ¬ mark.toList <+: front.toList ∧ ¬ front.toList <+: mark.toList) (rest : String) :
    ¬ Shows (front ++ rest) := by
  rintro ⟨mark, hmark, hbegins⟩
  exact not_prefix_append (hfront mark hmark) rest hbegins

theorem Shows.isMarked {line : String} (hline : Shows line) : isMarked line = true := by
  obtain ⟨mark, hmark, hbegins⟩ := hline
  apply List.any_eq_true.mpr
  refine ⟨mark, ?_, String.startsWith_string_iff.mpr hbegins⟩
  exact (by decide : ∀ mark ∈ showingMarks, mark ∈ progressMarks) mark hmark

namespace Job

open Attachment

variable {w : World} {j : Job} {line : String}

theorem isRead_of_readConfig {ds : List Directive} (hconfig : (j.readConfig w).2 = .ok ds)
    {d : Directive} (hd : d ∈ ds) : d.IsRead := by
  rcases opened_or_not w j with ⟨stream, hopen⟩ | ⟨path, e, hpath, hopen⟩
  · rw [readConfig_of_opened hopen] at hconfig
    exact ⟨stream, j.config, j.cap, ds, hconfig, hd⟩
  · rw [readConfig_of_not_opened hpath hopen] at hconfig
    exact nomatch hconfig

/-- Nothing is marked in a run unless its module was loaded and its configuration was read. -/
theorem marks_run_cases (w : World) (j : Job) : (j.run w).trace.marks = [] ∨
    ∃ h ds, (j.readConfig w).2 = .ok ds ∧
      (j.run w).trace.marks = (parsedLines ds).marks ++ (attachAll h ds).trace.marks := by
  cases hload : (w.load j.object).result with
  | error chain =>
    have hstart := marks_start j (w.load j.object).log
    rw [Trace.marks_append] at hstart
    rw [run_eq_of_load_error hload]
    exact Or.inl (List.append_eq_nil_iff.mp hstart).1
  | ok h =>
    cases hconfig : (j.readConfig w).2 with
    | error e =>
      rw [run_eq_of_load_ok hload, proceed_eq_of_error hconfig]
      dsimp only
      rw [Trace.marks_append, marks_start, Trace.marks_append,
        Trace.marks_cons_say_of_not (isMarked_readingLine j), Trace.marks_map_log]
      exact Or.inl rfl
    | ok ds => exact Or.inr ⟨h, ds, rfl, marks_run hload hconfig⟩

/-- A line of a run that shows a directive shows one that was read. -/
theorem exists_entry_of_shows (hline : line ∈ (j.run w).trace.lines) (hshows : Shows line) :
    ∃ d : Directive, d.IsRead ∧ IsEntry d line := by
  have hmarked : line ∈ (j.run w).trace.marks.lines := by
    rw [Trace.lines_marks]
    exact List.mem_filter.mpr ⟨hline, hshows.isMarked⟩
  rcases marks_run_cases w j with hnone | ⟨h, ds, hconfig, hmarks⟩
  · rw [hnone] at hmarked
    exact absurd hmarked List.not_mem_nil
  · rw [hmarks, marks_attachAll, Trace.lines_append, Trace.lines_append, lines_marks_parsedLines,
      lines_accounts] at hmarked
    simp only [List.mem_append, List.mem_map] at hmarked
    rcases hmarked with (⟨d, hd, rfl⟩ | hfound) | ⟨⟨d, number⟩, hnumbered, rfl⟩ | htally
    · exact ⟨d, isRead_of_readConfig hconfig hd, .parsed⟩
    · obtain rfl := List.mem_singleton.mp hfound
      simp only [String.append_assoc] at hshows
      exact absurd hshows (not_shows_append (by decide) _)
    · have hd := List.fst_mem_of_mem_zipIdx hnumbered
      exact ⟨d, isRead_of_readConfig hconfig hd, .announced number ds.length⟩
    · obtain rfl := List.mem_singleton.mp htally
      simp only [String.append_assoc] at hshows
      exact absurd hshows (not_shows_append (by decide) _)

end Job

namespace Directive

theorem IsRead.isWritable {d : Directive} (hd : d.IsRead) : d.IsWritable := by
  obtain ⟨s, source, cap, ds, hread, hmem⟩ := hd
  exact Reading.isWritable_of_directives hread hmem

/-- Directives that were read look the same exactly if they have the same fields, and what they
look like has no newline in it. So the lines of a run that show a directive, whatever its
configuration holds, show one that was read and have no newline either. -/
theorem shown_unambiguous :
    (∀ d e : Directive, d.IsRead → e.IsRead → (d.shown = e.shown ↔
      d.programName = e.programName ∧ d.kind = e.kind ∧ d.target = e.target ∧
        d.pinPath = e.pinPath)) ∧
    (∀ d : Directive, d.IsRead → '\n' ∉ d.shown.toList) ∧
    ∀ (w : World) (j : Job), ∀ line ∈ (j.run w).trace.lines, Shows line →
      (∃ d : Directive, d.IsRead ∧ IsEntry d line) ∧ '\n' ∉ line.toList := by
  refine ⟨?_, ?_, ?_⟩
  · intro d e hd he
    constructor
    · exact hd.isWritable.eq_of_shown he.isWritable
    · rintro ⟨hprogram, hkind, htarget, hpin⟩
      unfold shown
      rw [hprogram, hkind, htarget, hpin]
  · intro d hd
    exact hd.isWritable.newline_not_mem_shown
  · intro w j line hline hshows
    obtain ⟨d, hd, hentry⟩ := Job.exists_entry_of_shows hline hshows
    exact ⟨⟨d, hd, hentry⟩, hentry.newline_not_mem hd.isWritable⟩

/-- Fields that hold what stands between fields are told apart all the same. -/
theorem shown_unambiguous_arrows :
    let d : Directive := ⟨1, .ofString "/p)", "a->", .kprobe, "b:c(pin:/p)"⟩
    let e : Directive := ⟨3, .ofString "(pin:/p)", "a->kprobe:b", .kprobe, "c"⟩
    d.IsRead ∧ e.IsRead ∧ d.shown ≠ e.shown := by
  intro d e
  let text := "/p) a-> kprobe b:c(pin:/p)\n# (pin:\n(pin:/p) a->kprobe:b kprobe c"
  have hread : (Stream.mk (Utf8.encode text) none).directives .stdin none = .ok [d, e] := by
    decide +kernel
  have hd : d.IsRead := ⟨_, .stdin, none, _, hread, by simp⟩
  have he : e.IsRead := ⟨_, .stdin, none, _, hread, by simp⟩
  refine ⟨hd, he, ?_⟩
  intro heq
  have hprogram := ((shown_unambiguous.1 d e hd he).mp heq).1
  exact absurd hprogram (by decide)

end Directive

end ProbeLoader
