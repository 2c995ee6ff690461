import ProbeLoader.Proofs.Config.Delivered
import ProbeLoader.Proofs.Line.Grammar

/-!
# Directives as they can be written

What a configuration can hold is known exactly. The directives that are read from one have fields
without white space that keep to their lengths, and they stand on ascending lines; and any
directives of that kind can be written so that reading gives them back, each on its own line, with
comments on the lines between.
-/

namespace ProbeLoader

/-- A field that a line can hold. -/
structure IsField (limit : Nat) (s : String) : Prop where
  ne : s ≠ ""
  free : ∀ c ∈ s.toList, c ∉ Line.asciiWhiteSpace
  length_le : s.utf8ByteSize ≤ limit

theorem IsField.newline_not_mem {limit : Nat} {s : String} (hs : IsField limit s) :
    '\n' ∉ s.toList := by
  intro hmem
  exact hs.free _ hmem (by decide)

/-- A directive that a line can hold. -/
structure Directive.IsWritable (d : Directive) : Prop where
  pinPath : ∃ p, d.pinPath = .ofString p ∧ IsField 255 p
  programName : IsField 63 d.programName
  target : IsField 63 d.target

/-- Directives that a configuration can hold. -/
structure AreWritable (ds : List Directive) : Prop where
  ne : ds ≠ []
  numbered : ∀ d ∈ ds, 1 ≤ d.line
  ascending : ds.Pairwise fun d e => d.line < e.line
  writable : ∀ d ∈ ds, d.IsWritable

/-- The line of a directive. The blank in front keeps a pin path that begins with `#` from making
the line a comment. -/
def Directive.written (d : Directive) : List UInt8 :=
  Utf8.encode " " ++ d.pinPath.bytes ++ Utf8.encode s!" {d.programName} {d.kind.name} {d.target}"

/-- The lines of directives from a number on, with comments up to each directive. -/
def writtenFrom (number : Nat) : List Directive → List (List UInt8)
  | [] => []
  | d :: ds =>
    List.replicate (d.line - number) (Utf8.encode "#") ++ d.written :: writtenFrom (d.line + 1) ds

def written (ds : List Directive) : List UInt8 :=
  (writtenFrom 1 ds).flatMap fun l => l ++ [Stream.lineFeed]

namespace Line

theorem isField_kind (k : ProbeKind) : IsField 15 k.name := by
  have hfree : ∀ c ∈ k.name.toList, c ∉ asciiWhiteSpace := by
    have hall : (k.name.toList.all fun c => !Text.isSeparator c) = true := by cases k <;> rfl
    intro c hc hmem
    have hsep := List.all_eq_true.mp hall c hc
    rw [(isSeparator_iff c).mpr hmem] at hsep
    exact Bool.false_ne_true hsep
  cases k <;> exact ⟨by decide, hfree, by decide⟩

theorem isWritable_of_parse {n : Nat} {s : String} {d : Directive}
    (h : parse n s = .ok (some d)) : d.IsWritable := by
  obtain ⟨l, hl, _, hd⟩ := exists_layout_of_parse h
  have hfields := hl.fields
  simp only [List.forall_mem_cons] at hfields
  obtain ⟨hpin, hprogram, _, htarget, _⟩ := hfields
  refine ⟨⟨l.pinPath, hd.pinPath, hpin.1, hpin.2, hl.pinPath_le⟩, ?_, ?_⟩
  · rw [hd.programName]
    exact ⟨hprogram.1, hprogram.2, hl.programName_le⟩
  · rw [hd.target]
    exact ⟨htarget.1, htarget.2, hl.target_le⟩

theorem isWritable_of_parseBytes {n : Nat} {bytes : List UInt8} {d : Directive}
    (h : parseBytes n bytes = .ok (some d)) : d.IsWritable := by
  unfold parseBytes at h
  split at h
  · exact nomatch h
  · exact isWritable_of_parse h

/-- The layout of the line of a directive with a given pin path. -/
def layoutOf (p : String) (d : Directive) : Layout :=
  ⟨" ", p, " ", d.programName, " ", d.kind.name, " ", d.target, ""⟩

variable {p : String} {d : Directive}

theorem written_eq (hp : d.pinPath = .ofString p) :
    d.written = Utf8.encode (layoutOf p d).text := by
  unfold Directive.written Layout.text layoutOf
  rw [hp]
  simp [Path.ofString, toString]

theorem layoutOf_isValid (hd : d.IsWritable) (hp : IsField 255 p) : (layoutOf p d).IsValid := by
  have hkind := isField_kind d.kind
  refine ⟨?_, ?_, ?_, hp.length_le, hd.programName.length_le, hkind.length_le,
    hd.target.length_le⟩
  · simp [layoutOf, asciiWhiteSpace]
  · simp [layoutOf]
  · simp only [layoutOf, List.forall_mem_cons]
    exact ⟨⟨hp.ne, hp.free⟩, ⟨hd.programName.ne, hd.programName.free⟩, ⟨hkind.ne, hkind.free⟩,
      ⟨hd.target.ne, hd.target.free⟩, fun f hf => absurd hf List.not_mem_nil⟩

theorem parseBytes_written (hd : d.IsWritable) : parseBytes d.line d.written = .ok (some d) := by
  obtain ⟨p, hpin, hp⟩ := hd.pinPath
  have hspells : (layoutOf p d).Spells d.line d := ⟨rfl, hpin, rfl, rfl, rfl⟩
  have hhash : (layoutOf p d).text.toList.head? ≠ some '#' := by
    simp [Layout.toList_text, layoutOf]
  unfold parseBytes
  rw [written_eq hpin, Utf8.decode?_encode]
  exact parse_text (layoutOf_isValid hd hp) hspells hhash

theorem parseBytes_comment (n : Nat) : parseBytes n (Utf8.encode "#") = .ok none := by
  unfold parseBytes
  rw [Utf8.decode?_encode]
  rfl

theorem lineFeed_not_mem_written (hd : d.IsWritable) : Stream.lineFeed ∉ d.written := by
  obtain ⟨p, hpin, hp⟩ := hd.pinPath
  rw [written_eq hpin]
  intro hmem
  have hfeed : '\n' ∈ (layoutOf p d).text.toList := Utf8.mem_of_mem_encode (by decide) hmem
  rw [Layout.toList_text] at hfeed
  simp [layoutOf, hp.newline_not_mem, hd.programName.newline_not_mem,
    (isField_kind d.kind).newline_not_mem, hd.target.newline_not_mem] at hfeed

end Line

namespace Reading

/-- A line that ends before other lines is the first of all. -/
theorem linesOf_append_cons {l : List UInt8} (hl : Stream.lineFeed ∉ l) (rest : List UInt8) :
    linesOf (l ++ Stream.lineFeed :: rest) = l :: linesOf rest := by
  have hne := Text.segments_ne_nil (· == Stream.lineFeed) rest
  have hparts : Text.segments (· == Stream.lineFeed) (l ++ Stream.lineFeed :: rest) =
      l :: Text.segments (· == Stream.lineFeed) rest := by
    rw [Text.segments_append_cons _ rfl, Text.segments_eq_singleton, List.singleton_append]
    intro b hb
    exact beq_eq_false_iff_ne.mpr fun heq => hl (heq ▸ hb)
  unfold linesOf
  rw [← Text.segments_eq_splitOn, ← Text.segments_eq_splitOn, hparts]
  dsimp only
  rw [List.getLast?_cons_of_ne_nil hne, List.dropLast_cons_of_ne_nil hne]
  split <;> rfl

theorem linesOf_flatMap {ls : List (List UInt8)} (hls : ∀ l ∈ ls, Stream.lineFeed ∉ l) :
    linesOf (ls.flatMap fun l => l ++ [Stream.lineFeed]) = ls := by
  induction ls with
  | nil => rfl
  | cons l ls ih =>
    have hrest := ih fun m hm => hls m (List.mem_cons_of_mem l hm)
    rw [List.flatMap_cons, List.append_assoc, List.singleton_append,
      linesOf_append_cons (hls l List.mem_cons_self), hrest]

theorem fates_comments (number k : Nat) :
    fates number (List.replicate k (Utf8.encode "#")) = List.replicate k (.ok none) := by
  induction k generalizing number with
  | zero => rfl
  | succ k ih => rw [List.replicate_succ, fates_cons, ih, Line.parseBytes_comment,
      List.replicate_succ]

theorem lineFeed_not_mem_writtenFrom {number : Nat} {ds : List Directive}
    (hds : ∀ d ∈ ds, d.IsWritable) : ∀ l ∈ writtenFrom number ds, Stream.lineFeed ∉ l := by
  induction ds generalizing number with
  | nil => exact fun l hl => absurd hl List.not_mem_nil
  | cons d ds ih =>
    intro l hl
    rcases List.mem_append.mp hl with hl | hl
    · rw [List.eq_of_mem_replicate hl]
      decide
    · rcases List.mem_cons.mp hl with rfl | hl
      · exact Line.lineFeed_not_mem_written (hds d List.mem_cons_self)
      · exact ih (fun e he => hds e (List.mem_cons_of_mem d he)) l hl

/-- What becomes of the lines that are written: each directive is accepted, and the comments come
to nothing. -/
theorem parts_writtenFrom {number : Nat} {ds : List Directive} (hfrom : ∀ d ∈ ds, number ≤ d.line)
    (hascending : ds.Pairwise fun d e => d.line < e.line) (hds : ∀ d ∈ ds, d.IsWritable) :
    acceptedIn number (writtenFrom number ds) = ds ∧
      rejectedIn number (writtenFrom number ds) = [] := by
  induction ds generalizing number with
  | nil => exact ⟨rfl, rfl⟩
  | cons d ds ih =>
    -- The comments bring the number up to the line of the directive.
    have hline : number + (d.line - number) = d.line :=
      Nat.add_sub_cancel' (hfrom d List.mem_cons_self)
    obtain ⟨hfirst, hascending⟩ := List.pairwise_cons.mp hascending
    obtain ⟨haccepted, hrejected⟩ := ih (show ∀ e ∈ ds, d.line + 1 ≤ e.line from hfirst) hascending
      fun e he => hds e (List.mem_cons_of_mem d he)
    have hd := Line.parseBytes_written (hds d List.mem_cons_self)
    constructor
    · rw [writtenFrom, acceptedIn_append, List.length_replicate, hline, acceptedIn_cons, hd,
        haccepted]
      simp [acceptedIn, fates_comments, accepted?]
    · rw [writtenFrom, rejectedIn_append, List.length_replicate, hline, rejectedIn_cons, hd,
        hrejected]
      simp [rejectedIn, fates_comments, rejected?]

theorem reading_written {ds : List Directive} (hds : AreWritable ds) (source : ConfigSource) :
    (Stream.mk (written ds) none).reading source none = ⟨[], ds, none⟩ := by
  obtain ⟨haccepted, hrejected⟩ := parts_writtenFrom hds.numbered hds.ascending hds.writable
  have hlines : linesOf (written ds) = writtenFrom 1 ds :=
    linesOf_flatMap (lineFeed_not_mem_writtenFrom hds.writable)
  unfold acceptedIn at haccepted
  unfold rejectedIn at hrejected
  rw [reading_eq, hlines, haccepted, hrejected, List.map_nil]

theorem directives_written {ds : List Directive} (hds : AreWritable ds) (source : ConfigSource) :
    (Stream.mk (written ds) none).directives source none = .ok ds := by
  unfold Stream.directives result
  rw [reading_written hds]
  obtain ⟨d, rest, rfl⟩ := List.exists_cons_of_ne_nil hds.ne
  rfl

theorem isWritable_of_mem_acceptedIn {number : Nat} {ls : List (List UInt8)} {d : Directive}
    (hd : d ∈ acceptedIn number ls) : d.IsWritable := by
  obtain ⟨fate, hfate, haccepted⟩ := List.mem_filterMap.mp hd
  obtain ⟨line, _, rfl⟩ := List.mem_map.mp hfate
  exact Line.isWritable_of_parseBytes (accepted?_eq_some_iff.mp haccepted)

theorem areWritable_of_directives {bytes : List UInt8} {source : ConfigSource}
    {ds : List Directive} (hread : (Stream.mk bytes none).directives source none = .ok ds) :
    AreWritable ds := by
  obtain ⟨_, hds, hne⟩ := (directives_eq_ok_iff source).mp hread
  obtain rfl : acceptedIn 1 (Stream.mk bytes none).delivered = ds := hds
  refine ⟨hne, ?_, acceptedIn_pairwise 1 _, fun d hd => isWritable_of_mem_acceptedIn hd⟩
  intro d hd
  obtain ⟨fate, hfate, haccepted⟩ := List.mem_filterMap.mp hd
  obtain ⟨m, hle, _, hline, _⟩ := line_of_mem_fates hfate
  rw [hline d (accepted?_eq_some_iff.mp haccepted)]
  exact hle

/-- Whatever ends a reading, and wherever, the directives it came to could be written. -/
theorem isWritable_of_directives {s : Stream} {source : ConfigSource} {cap : Option Nat}
    {ds : List Directive} (hread : s.directives source cap = .ok ds) {d : Directive}
    (hd : d ∈ ds) : d.IsWritable := by
  obtain ⟨_, rfl, _⟩ := (directives_eq_ok_iff source).mp hread
  cases cap with
  | none => exact isWritable_of_mem_acceptedIn hd
  | some n => exact isWritable_of_mem_acceptedIn (List.mem_of_mem_take hd)

/-- The directives that some bytes are read as are exactly those that can be written, and what is
written for them is read as them without a warning. -/
theorem directives_iff_areWritable (source : ConfigSource) (ds : List Directive) :
    ((∃ bytes, (Stream.mk bytes none).directives source none = .ok ds) ↔ AreWritable ds) ∧
      (AreWritable ds ↔ (Stream.mk (written ds) none).directives source none = .ok ds ∧
        ((Stream.mk (written ds) none).reading source none).log = []) := by
  constructor
  · constructor
    · rintro ⟨bytes, hread⟩
      exact areWritable_of_directives hread
    · intro hds
      exact ⟨written ds, directives_written hds source⟩
  · constructor
    · intro hds
      refine ⟨directives_written hds source, ?_⟩
      rw [reading_written hds]
    · rintro ⟨hread, _⟩
      exact areWritable_of_directives hread

example :
    written [⟨2, .ofString "#/p/a", "count", .kprobe, "vfs_read"⟩,
      ⟨3, .ofString "/p/b", "trace/exec", .tracepoint, "sched:fork"⟩] =
    Utf8.encode "#\n #/p/a count kprobe vfs_read\n /p/b trace/exec tracepoint sched:fork\n" := by
  decide +kernel

end Reading

end ProbeLoader
