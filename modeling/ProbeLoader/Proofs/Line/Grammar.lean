import ProbeLoader.Proofs.Line.Parse
import ProbeLoader.Proofs.Text.Utf8

/-!
# The grammar of lines

A line that gives a directive is laid out as four fields with white space between them, and before
and after them where one likes. Such a layout is the only one of its line, and any line that has
one and is no comment gives the directive of its fields, however wide the gaps are.
-/

namespace ProbeLoader.Line

open Text

/-- The characters that separate fields: space, tab, line feed, form feed, carriage return. -/
def asciiWhiteSpace : List Char := [' ', '\t', '\n', '\x0c', '\r']

/-- A line cut into its fields and the gaps around them. -/
structure Layout where
  lead : String
  pinPath : String
  gap₁ : String
  programName : String
  gap₂ : String
  kind : String
  gap₃ : String
  target : String
  trail : String
  deriving DecidableEq, Repr

namespace Layout

def text (l : Layout) : String :=
  l.lead ++ (l.pinPath ++ (l.gap₁ ++ (l.programName ++ (l.gap₂ ++ (l.kind ++ (l.gap₃ ++
    (l.target ++ l.trail)))))))

/-- The gaps are white space, those between fields are not empty, and the fields are non-empty,
free of white space and of a length in bytes that is allowed. -/
structure IsValid (l : Layout) : Prop where
  gaps : ∀ w ∈ [l.lead, l.gap₁, l.gap₂, l.gap₃, l.trail], ∀ c ∈ w.toList, c ∈ asciiWhiteSpace
  gaps_ne : ∀ w ∈ [l.gap₁, l.gap₂, l.gap₃], w ≠ ""
  fields : ∀ f ∈ [l.pinPath, l.programName, l.kind, l.target],
    f ≠ "" ∧ ∀ c ∈ f.toList, c ∉ asciiWhiteSpace
  pinPath_le : l.pinPath.utf8ByteSize ≤ 255
  programName_le : l.programName.utf8ByteSize ≤ 63
  kind_le : l.kind.utf8ByteSize ≤ 15
  target_le : l.target.utf8ByteSize ≤ 63

/-- The directive on line `n` with the fields of a layout. -/
structure Spells (l : Layout) (n : Nat) (d : Directive) : Prop where
  line : d.line = n
  pinPath : d.pinPath = .ofString l.pinPath
  programName : d.programName = l.programName
  kind : d.kind.name = l.kind
  target : d.target = l.target

end Layout

theorem isSeparator_iff (c : Char) : isSeparator c = true ↔ c ∈ asciiWhiteSpace := by
  simp [isSeparator, asciiWhiteSpace, or_assoc]

theorem isGap_iff (w : String) :
    IsGap isSeparator w.toList ↔ ∀ c ∈ w.toList, c ∈ asciiWhiteSpace := by
  unfold IsGap
  simp only [isSeparator_iff]

theorem isRun_iff (f : String) :
    IsRun isSeparator f.toList ↔ f ≠ "" ∧ ∀ c ∈ f.toList, c ∉ asciiWhiteSpace := by
  unfold IsRun
  simp only [← isSeparator_iff, Bool.not_eq_true, ne_eq, String.toList_eq_nil_iff]

/-- In front of a run that begins a stretch after a break stands a gap that is not empty. -/
theorem ne_nil_of_breaks {g t rest : List Char} (hbreaks : Breaks isSeparator (g ++ (t ++ rest)))
    (ht : IsRun isSeparator t) : g ≠ [] := by
  rintro rfl
  obtain ⟨hne, hfree⟩ := ht
  cases t with
  | nil => exact hne rfl
  | cons c t =>
    have hsep := hbreaks c rfl
    rw [hfree c List.mem_cons_self] at hsep
    exact Bool.false_ne_true hsep

theorem exists_layout_of_words {s p g k t : String} (hs : words s = [p, g, k, t]) :
    ∃ l : Layout, l.text = s ∧ l.pinPath = p ∧ l.programName = g ∧ l.kind = k ∧ l.target = t ∧
      (∀ w ∈ [l.lead, l.gap₁, l.gap₂, l.gap₃, l.trail], ∀ c ∈ w.toList, c ∈ asciiWhiteSpace) ∧
      (∀ w ∈ [l.gap₁, l.gap₂, l.gap₃], w ≠ "") ∧
      ∀ f ∈ [p, g, k, t], f ≠ "" ∧ ∀ c ∈ f.toList, c ∉ asciiWhiteSpace := by
  obtain ⟨w₀, r₁, hs₁, hw₀, hp, hr₁, h₁⟩ := runs_eq_cons_iff.mp (words_eq_iff.mp hs)
  obtain ⟨w₁, r₂, rfl, hw₁, hg, hr₂, h₂⟩ := runs_eq_cons_iff.mp h₁
  obtain ⟨w₂, r₃, rfl, hw₂, hk, hr₃, h₃⟩ := runs_eq_cons_iff.mp h₂
  obtain ⟨w₃, w₄, rfl, hw₃, ht, hr₄, h₄⟩ := runs_eq_cons_iff.mp h₃
  have hw₄ := runs_eq_nil_iff.mp h₄
  have hne₁ := ne_nil_of_breaks hr₁ hg
  have hne₂ := ne_nil_of_breaks hr₂ hk
  have hne₃ := ne_nil_of_breaks hr₃ ht
  refine ⟨⟨.ofList w₀, p, .ofList w₁, g, .ofList w₂, k, .ofList w₃, t, .ofList w₄⟩,
    ?_, rfl, rfl, rfl, rfl, ?_, ?_, ?_⟩
  · apply String.toList_inj.mp
    simp [Layout.text, hs₁]
  · simp only [List.forall_mem_cons, ← isGap_iff, String.toList_ofList]
    exact ⟨hw₀, hw₁, hw₂, hw₃, hw₄, by simp⟩
  · simp [hne₁, hne₂, hne₃]
  · simp only [List.forall_mem_cons, ← isRun_iff]
    exact ⟨hp, hg, hk, ht, by simp⟩

namespace Layout

/-- The parts of a valid layout as gaps and runs. -/
structure Parts (l : Layout) : Prop where
  lead : IsGap isSeparator l.lead.toList
  pinPath : IsRun isSeparator l.pinPath.toList
  gap₁ : IsGap isSeparator l.gap₁.toList ∧ l.gap₁.toList ≠ []
  programName : IsRun isSeparator l.programName.toList
  gap₂ : IsGap isSeparator l.gap₂.toList ∧ l.gap₂.toList ≠ []
  kind : IsRun isSeparator l.kind.toList
  gap₃ : IsGap isSeparator l.gap₃.toList ∧ l.gap₃.toList ≠ []
  target : IsRun isSeparator l.target.toList
  trail : IsGap isSeparator l.trail.toList

theorem IsValid.parts {l : Layout} (hl : l.IsValid) : l.Parts := by
  have hgaps := hl.gaps
  have hne := hl.gaps_ne
  have hfields := hl.fields
  simp only [List.forall_mem_cons, ← isGap_iff] at hgaps
  simp only [List.forall_mem_cons, ne_eq, ← String.toList_eq_nil_iff] at hne
  simp only [List.forall_mem_cons, ← isRun_iff] at hfields
  obtain ⟨hlead, hgap₁, hgap₂, hgap₃, htrail, _⟩ := hgaps
  obtain ⟨hne₁, hne₂, hne₃, _⟩ := hne
  obtain ⟨hpin, hprogram, hkind, htarget, _⟩ := hfields
  exact ⟨hlead, hpin, ⟨hgap₁, hne₁⟩, hprogram, ⟨hgap₂, hne₂⟩, hkind, ⟨hgap₃, hne₃⟩, htarget,
    htrail⟩

theorem toList_text (l : Layout) : l.text.toList =
    l.lead.toList ++ (l.pinPath.toList ++ (l.gap₁.toList ++ (l.programName.toList ++
      (l.gap₂.toList ++ (l.kind.toList ++ (l.gap₃.toList ++ (l.target.toList ++
        l.trail.toList))))))) := by
  simp [text]

theorem Parts.words_text {l : Layout} (hl : l.Parts) :
    words l.text = [l.pinPath, l.programName, l.kind, l.target] := by
  rw [words_eq_iff, toList_text]
  refine runs_eq_cons_iff.mpr ⟨_, _, rfl, hl.lead, hl.pinPath,
    breaks_gap_append hl.gap₁.1 hl.gap₁.2 _, ?_⟩
  refine runs_eq_cons_iff.mpr ⟨_, _, rfl, hl.gap₁.1, hl.programName,
    breaks_gap_append hl.gap₂.1 hl.gap₂.2 _, ?_⟩
  refine runs_eq_cons_iff.mpr ⟨_, _, rfl, hl.gap₂.1, hl.kind,
    breaks_gap_append hl.gap₃.1 hl.gap₃.2 _, ?_⟩
  refine runs_eq_cons_iff.mpr ⟨_, _, rfl, hl.gap₃.1, hl.target, breaks_gap hl.trail, ?_⟩
  exact runs_gap hl.trail

theorem Parts.eq_of_text_eq {l l' : Layout} (hl : l.Parts) (hl' : l'.Parts)
    (heq : l.text = l'.text) : l = l' := by
  have h₀ := congrArg String.toList heq
  rw [toList_text, toList_text] at h₀
  obtain ⟨hlead, hpin, h₁⟩ := gap_run_inj hl.lead hl'.lead hl.pinPath hl'.pinPath
    (breaks_gap_append hl.gap₁.1 hl.gap₁.2 _) (breaks_gap_append hl'.gap₁.1 hl'.gap₁.2 _) h₀
  obtain ⟨hgap₁, hprogram, h₂⟩ := gap_run_inj hl.gap₁.1 hl'.gap₁.1 hl.programName hl'.programName
    (breaks_gap_append hl.gap₂.1 hl.gap₂.2 _) (breaks_gap_append hl'.gap₂.1 hl'.gap₂.2 _) h₁
  obtain ⟨hgap₂, hkind, h₃⟩ := gap_run_inj hl.gap₂.1 hl'.gap₂.1 hl.kind hl'.kind
    (breaks_gap_append hl.gap₃.1 hl.gap₃.2 _) (breaks_gap_append hl'.gap₃.1 hl'.gap₃.2 _) h₂
  obtain ⟨hgap₃, htarget, htrail⟩ := gap_run_inj hl.gap₃.1 hl'.gap₃.1 hl.target hl'.target
    (breaks_gap hl.trail) (breaks_gap hl'.trail) h₃
  cases l
  cases l'
  simp only [String.toList_inj] at *
  simp only [*]

end Layout

theorem kind_char (k : ProbeKind) : ∃ c ∈ k.name.toList, isWhiteSpace c = false := by
  cases k with
  | tracepoint => exact ⟨'t', by decide, by decide⟩
  | kprobe => exact ⟨'k', by decide, by decide⟩
  | kretprobe => exact ⟨'k', by decide, by decide⟩

theorem exists_layout_of_parse {n : Nat} {s : String} {d : Directive}
    (h : parse n s = .ok (some d)) : ∃ l : Layout, l.IsValid ∧ l.text = s ∧ l.Spells n d := by
  obtain ⟨p, g, k, t, kind, hwords, ⟨hp, hg, hk, ht⟩, hkind, rfl⟩ :=
    ofWords_eq_ok_iff.mp (parse_eq_ok_some_iff.mp h).2
  obtain ⟨l, htext, rfl, rfl, rfl, rfl, hgaps, hne, hfields⟩ := exists_layout_of_words hwords
  simp only [Utf8.length_encode] at hp hg hk ht
  exact ⟨l, ⟨hgaps, hne, hfields, hp, hg, hk, ht⟩, htext,
    ⟨rfl, rfl, rfl, ProbeKind.name_of_ofName? hkind, rfl⟩⟩

theorem parse_text {n : Nat} {l : Layout} {d : Directive} (hl : l.IsValid) (hd : l.Spells n d)
    (hhash : l.text.toList.head? ≠ some '#') : parse n l.text = .ok (some d) := by
  apply parse_eq_ok_some_iff.mpr
  constructor
  · obtain ⟨c, hc, hwhite⟩ := kind_char d.kind
    refine isIgnored_eq_false ?_ hwhite hhash
    rw [hd.kind] at hc
    simp [Layout.toList_text, hc]
  · refine ofWords_eq_ok_iff.mpr ⟨_, _, _, _, d.kind, hl.parts.words_text, ?_, ?_, ?_⟩
    · simp only [Utf8.length_encode]
      exact ⟨hl.pinPath_le, hl.programName_le, hl.kind_le, hl.target_le⟩
    · rw [← hd.kind]
      exact ProbeKind.ofName?_name d.kind
    · rw [← hd.line, ← hd.pinPath, ← hd.programName, ← hd.target]

/-- A line gives a directive exactly if it is no comment and can be laid out as the fields of that
directive between gaps of white space, and it can be laid out in one way only. -/
theorem parse_iff_layout (n : Nat) (s : String) :
    (∀ d, parse n s = .ok (some d) ↔ s.toList.head? ≠ some '#' ∧
      ∃ l : Layout, l.IsValid ∧ l.text = s ∧ l.Spells n d) ∧
    ∀ l l' : Layout, l.IsValid → l'.IsValid → l.text = s → l'.text = s → l = l' := by
  constructor
  · intro d
    constructor
    · intro h
      exact ⟨head?_ne_of_not_isIgnored (parse_eq_ok_some_iff.mp h).1, exists_layout_of_parse h⟩
    · rintro ⟨hhash, l, hl, rfl, hd⟩
      exact parse_text hl hd hhash
  · intro l l' hl hl' htext htext'
    exact hl.parts.eq_of_text_eq hl'.parts (htext.trans htext'.symm)

end ProbeLoader.Line
