import ProbeLoader.Config.Reading
import ProbeLoader.Proofs.Line.Parse
import ProbeLoader.Proofs.Text.Segments
import ProbeLoader.Proofs.Text.Utf8
import Mathlib.Data.List.Forall2

/-!
# Reading line by line

Without a cap and without a failure, a configuration is read as its lines are read one by one. What
becomes of a line is decided by its bytes and its number alone, and the directives and warnings of
the whole are those of the lines in order.
-/

namespace ProbeLoader

namespace Reading

/-- The lines of bytes: what stands between line feeds, but nothing after the last of them if it
is empty. -/
def linesOf (bytes : List UInt8) : List (List UInt8) :=
  let parts := bytes.splitOn Stream.lineFeed
  if parts.getLast? = some [] then parts.dropLast else parts

/-- What becomes of a line: it is rejected if its bytes are no text, and else as its text says. -/
inductive Fate (number : Nat) (bytes : List UInt8) : Except LineError (Option Directive) → Prop where
  | notText : (∀ s, bytes ≠ Utf8.encode s) → Fate number bytes (.error ⟨number, .invalidUtf8⟩)
  | text {s : String} : bytes = Utf8.encode s → Fate number bytes (Line.parse number s)

def accepted? : Except LineError (Option Directive) → Option Directive
  | .ok d => d
  | .error _ => none

def rejected? : Except LineError (Option Directive) → Option LineError
  | .ok _ => none
  | .error e => some e

/-- What becomes of lines of which the first one has a number. -/
def fates (number : Nat) (ls : List (List UInt8)) : List (Except LineError (Option Directive)) :=
  (ls.zipIdx number).map fun line => Line.parseBytes line.2 line.1

/-- What reading line by line meets is the lines. -/
theorem items_eq_map_line (bytes : List UInt8) :
    (Stream.mk bytes none).items = (linesOf bytes).map .line := by
  unfold Stream.items linesOf
  dsimp only
  rw [Text.segments_eq_splitOn]
  have hne : bytes.splitOn Stream.lineFeed ≠ [] := List.splitOn_ne_nil _ _
  obtain ⟨init, last, hparts⟩ := (List.eq_nil_or_concat' _).resolve_left hne
  rw [hparts]
  cases last with
  | nil => simp
  | cons b last => simp

theorem fates_cons (number : Nat) (l : List UInt8) (ls : List (List UInt8)) :
    fates number (l :: ls) = Line.parseBytes number l :: fates (number + 1) ls := rfl

theorem ofItems_map_line (source : ConfigSource) (count number : Nat) (ls : List (List UInt8)) :
    ofItems source none count number (ls.map .line) =
      ⟨((fates number ls).filterMap rejected?).map (skipped source),
        (fates number ls).filterMap accepted?, none⟩ := by
  induction ls generalizing count number with
  | nil => rfl
  | cons l ls ih =>
    simp only [List.map_cons, ofItems, isFull, Option.any_none, Bool.false_eq_true, if_false, ih,
      fates_cons]
    cases Line.parseBytes number l with
    | error e => simp [List.filterMap_cons, accepted?, rejected?]
    | ok o => cases o <;> simp [List.filterMap_cons, accepted?, rejected?]

/-- The bytes and the number of a line leave it one fate. -/
theorem fate_iff {number : Nat} {bytes : List UInt8} {fate : Except LineError (Option Directive)} :
    Fate number bytes fate ↔ fate = Line.parseBytes number bytes := by
  unfold Line.parseBytes
  constructor
  · intro h
    cases h with
    | notText hbytes => rw [Utf8.decode?_eq_none_iff.mpr hbytes]
    | text hbytes => rw [Utf8.decode?_eq_some_iff.mpr hbytes]
  · rintro rfl
    cases h : Utf8.decode? bytes with
    | none => exact .notText (Utf8.decode?_eq_none_iff.mp h)
    | some s => exact .text (Utf8.decode?_eq_some_iff.mp h)

theorem forall₂_fate_iff {number : Nat} {ls : List (List UInt8)}
    {fs : List (Except LineError (Option Directive))} :
    List.Forall₂ (fun line fate => Fate line.2 line.1 fate) (ls.zipIdx number) fs ↔
      fs = fates number ls := by
  simp only [fate_iff]
  induction ls generalizing number fs with
  | nil => simp [fates]
  | cons l ls ih =>
    rw [List.zipIdx_cons, List.forall₂_cons_left_iff, fates_cons]
    constructor
    · rintro ⟨fate, rest, rfl, hrest, rfl⟩
      rw [ih.mp hrest]
    · rintro rfl
      exact ⟨_, _, rfl, ih.mpr rfl, rfl⟩

theorem Fate.line_eq {number : Nat} {bytes : List UInt8}
    {fate : Except LineError (Option Directive)} (h : Fate number bytes fate) :
    (∀ d, fate = .ok (some d) → d.line = number) ∧ ∀ e, fate = .error e → e.line = number := by
  cases h with
  | notText =>
    refine ⟨?_, ?_⟩
    · intro d hd
      exact nomatch hd
    · rintro e he
      obtain rfl := Except.error.inj he
      rfl
  | text =>
    refine ⟨?_, ?_⟩
    · intro d hd
      exact Line.line_of_parse hd
    · intro e he
      exact Line.line_of_parse_error he

theorem line_of_getElem?_fates {number k : Nat} {ls : List (List UInt8)}
    {fate : Except LineError (Option Directive)} (h : (fates number ls)[k]? = some fate) :
    (∀ d, fate = .ok (some d) → d.line = number + k) ∧
      ∀ e, fate = .error e → e.line = number + k := by
  obtain ⟨l, hl⟩ : ∃ l, fate = Line.parseBytes (number + k) l := by
    unfold fates at h
    rw [List.getElem?_map, List.getElem?_zipIdx] at h
    cases hk : ls[k]? with
    | none => simp [hk] at h
    | some l =>
      rw [hk] at h
      exact ⟨l, (Option.some.inj h).symm⟩
  exact (fate_iff.mpr hl).line_eq

/-- A rejected line is warned about with its number and the reason. -/
theorem skipped_eq (source : ConfigSource) (e : LineError) : skipped source e =
    .warn s!"Skipping {source.shown} line {e.line}: {e.reason.message}" := by
  have hline : " line " = " " ++ "line " := rfl
  simp only [skipped, LineError.message, toString, hline, String.append_assoc]

theorem reading_eq (bytes : List UInt8) (source : ConfigSource) :
    (Stream.mk bytes none).reading source none =
      ⟨((fates 1 (linesOf bytes)).filterMap rejected?).map (skipped source),
        (fates 1 (linesOf bytes)).filterMap accepted?, none⟩ := by
  unfold Stream.reading
  rw [items_eq_map_line, ofItems_map_line]

/-- A configuration is read line by line. Each line has one fate, which its bytes and its number
decide and which carries that number; the directives that were accepted are the result, in order,
unless there is none, and every line that was rejected is warned about, in order. -/
theorem reading_by_line (bytes : List UInt8) (source : ConfigSource) :
    ∃ fates : List (Except LineError (Option Directive)),
      (∀ fs, List.Forall₂ (fun line fate => Fate line.2 line.1 fate) ((linesOf bytes).zipIdx 1) fs ↔
        fs = fates) ∧
      (∀ k fate, fates[k]? = some fate →
        (∀ d, fate = .ok (some d) → d.line = 1 + k) ∧ ∀ e, fate = .error e → e.line = 1 + k) ∧
      (Stream.mk bytes none).directives source none =
        (if fates.filterMap accepted? = [] then .error (.noDirectives source.shown)
        else .ok (fates.filterMap accepted?)) ∧
      ((Stream.mk bytes none).reading source none).log =
        (fates.filterMap rejected?).map fun e =>
          .warn s!"Skipping {source.shown} line {e.line}: {e.reason.message}" := by
  refine ⟨fates 1 (linesOf bytes), fun fs => forall₂_fate_iff, ?_, ?_, ?_⟩
  · intro k fate hk
    exact line_of_getElem?_fates hk
  · unfold Stream.directives
    rw [reading_eq]
    unfold result
    cases hds : (fates 1 (linesOf bytes)).filterMap accepted? <;> simp
  · rw [reading_eq]
    apply List.map_congr_left
    intro e _
    exact skipped_eq source e

end Reading

end ProbeLoader
