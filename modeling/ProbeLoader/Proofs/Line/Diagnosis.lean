import ProbeLoader.Proofs.Line.Grammar

/-!
# Why a line gives no directive

A line that begins with `#` or has nothing but Unicode white space is ignored. Of any other line
only the words count, which ASCII white space alone separates: their number first, then the length
of each field in order, then the probe kind. The first rule that is broken is the one the line is
rejected for, under its own number, and a line that breaks none gives the directive of its words.
-/

namespace ProbeLoader.Line

open Text

/-- The words of a text, in order: the maximal stretches without ASCII white space. -/
inductive AreWords : List Char → List String → Prop where
  | nil {gap : List Char} : (∀ c ∈ gap, c ∈ asciiWhiteSpace) → AreWords gap []
  | cons {gap rest : List Char} {w : String} {ws : List String} :
      (∀ c ∈ gap, c ∈ asciiWhiteSpace) → w ≠ "" → (∀ c ∈ w.toList, c ∉ asciiWhiteSpace) →
      (∀ c ∈ rest.head?, c ∈ asciiWhiteSpace) → AreWords rest ws →
      AreWords (gap ++ (w.toList ++ rest)) (w :: ws)

def IsIdle (s : String) : Prop :=
  s.toList.head? = some '#' ∨ ∀ c ∈ s.toList, isWhiteSpace c = true

/-- Four words in the order in which their lengths are looked at. -/
def fieldsOf (pinPath programName kind target : String) : List (Field × String) :=
  [(.pinPath, pinPath), (.programName, programName), (.probeKind, kind), (.target, target)]

def Fits (f : Field × String) : Prop := f.2.utf8ByteSize ≤ f.1.limit

/-- What words spell out on line `n`: a directive, or the first rule that they break. -/
inductive Spelled (n : Nat) : List String → Except Rejection Directive → Prop where
  | count {ws : List String} : ws.length ≠ 4 → Spelled n ws (.error (.fieldCount ws.length))
  | tooLong {p g k t value : String} {field : Field} {before after : List (Field × String)} :
      fieldsOf p g k t = before ++ (field, value) :: after → (∀ f ∈ before, Fits f) →
      field.limit < value.utf8ByteSize →
      Spelled n [p, g, k, t] (.error (.fieldTooLong field value.utf8ByteSize))
  | unsupported {p g k t : String} : (∀ f ∈ fieldsOf p g k t, Fits f) →
      k ∉ ["tracepoint", "kprobe", "kretprobe"] →
      Spelled n [p, g, k, t] (.error (.unsupportedKind k))
  | directive {p g t : String} {kind : ProbeKind} : (∀ f ∈ fieldsOf p g kind.name t, Fits f) →
      Spelled n [p, g, kind.name, t] (.ok ⟨n, .ofString p, g, kind, t⟩)

/-- What reading line `n` comes to, by its words. -/
inductive Verdict (n : Nat) (s : String) (ws : List String) :
    Except LineError (Option Directive) → Prop where
  | ignored : IsIdle s → Verdict n s ws (.ok none)
  | rejected {reason : Rejection} : ¬ IsIdle s → Spelled n ws (.error reason) →
      Verdict n s ws (.error ⟨n, reason⟩)
  | accepted {d : Directive} : ¬ IsIdle s → Spelled n ws (.ok d) → Verdict n s ws (.ok (some d))

structure Diagnosed (n : Nat) (s : String) : Prop where
  areWords : AreWords s.toList (words s)
  verdict_iff : ∀ r, parse n s = r ↔ Verdict n s (words s) r
  numbered : ∀ e, parse n s = .error e → e.line = n
  by_words : ∀ s', words s' = words s →
    (s'.toList.head? = some '#' ↔ s.toList.head? = some '#') → parse n s' = parse n s

theorem areWords_iff {cs : List Char} {ws : List String} :
    AreWords cs ws ↔ runs isSeparator cs = ws.map String.toList := by
  have hgap (gap : List Char) : (∀ c ∈ gap, c ∈ asciiWhiteSpace) ↔ IsGap isSeparator gap := by
    simp only [IsGap, isSeparator_iff]
  have hbreaks (rest : List Char) :
      (∀ c ∈ rest.head?, c ∈ asciiWhiteSpace) ↔ Breaks isSeparator rest := by
    simp only [Breaks, isSeparator_iff]
  constructor
  · intro hws
    induction hws with
    | nil hg => exact runs_gap ((hgap _).mp hg)
    | cons hg hne hfree hrest _ ih =>
      rw [List.map_cons]
      exact runs_eq_cons_iff.mpr ⟨_, _, rfl, (hgap _).mp hg, (isRun_iff _).mpr ⟨hne, hfree⟩,
        (hbreaks _).mp hrest, ih⟩
  · intro hruns
    induction ws generalizing cs with
    | nil => exact .nil ((hgap cs).mpr (runs_eq_nil_iff.mp hruns))
    | cons w ws ih =>
      obtain ⟨gap, rest, rfl, hg, hrun, hrest, htail⟩ := runs_eq_cons_iff.mp hruns
      obtain ⟨hne, hfree⟩ := (isRun_iff w).mp hrun
      exact .cons ((hgap gap).mpr hg) hne hfree ((hbreaks rest).mpr hrest) (ih htail)

theorem isIgnored_iff (s : String) : isIgnored s = true ↔ IsIdle s := by
  unfold isIgnored IsIdle isBlank
  rw [Bool.or_eq_true, beq_iff_eq, List.all_eq_true]

section

variable {n : Nat} {s s' : String} {p g k t value : String} {field : Field} {reason : Rejection}
  {ws : List String} {r : Except Rejection Directive}

theorem checkLength_eq_some_iff : checkLength field value = some reason ↔
    field.limit < value.utf8ByteSize ∧ reason = .fieldTooLong field value.utf8ByteSize := by
  unfold checkLength
  rw [Utf8.length_encode]
  dsimp only
  split
  · rename_i hle
    simp [Nat.not_lt.mpr hle]
  · rename_i hlong
    simp [Nat.lt_of_not_le hlong, eq_comm]

theorem checkLength_eq_none_iff_fits (f : Field × String) :
    checkLength f.1 f.2 = none ↔ Fits f := by
  unfold Fits
  rw [checkLength_eq_none_iff, Utf8.length_encode]

theorem ofWords_four (n : Nat) (p g k t : String) : ofWords n [p, g, k, t] =
    match (fieldsOf p g k t).findSome? fun f => checkLength f.1 f.2 with
    | some reason => .error reason
    | none =>
      match ProbeKind.ofName? k with
      | none => .error (.unsupportedKind k)
      | some kind => .ok ⟨n, .ofString p, g, kind, t⟩ := by
  have hfirst : (fieldsOf p g k t).findSome? (fun f => checkLength f.1 f.2) =
      (checkLength .pinPath p).or ((checkLength .programName g).or
        ((checkLength .probeKind k).or (checkLength .target t))) := by
    simp only [fieldsOf, List.findSome?_cons, List.findSome?_nil]
    cases checkLength .pinPath p <;> cases checkLength .programName g <;>
      cases checkLength .probeKind k <;> cases checkLength .target t <;> rfl
  rw [hfirst]
  rfl

theorem ofName?_eq_none_iff :
    ProbeKind.ofName? k = none ↔ k ∉ ["tracepoint", "kprobe", "kretprobe"] := by
  unfold ProbeKind.ofName?
  rw [List.find?_eq_none]
  simp [ProbeKind.all, ProbeKind.name, @eq_comm _ k]

theorem Spelled.ofWords_eq (h : Spelled n ws r) : ofWords n ws = r := by
  cases h with
  | count hcount =>
    unfold ofWords
    split
    · exact absurd rfl hcount
    · rfl
  | tooLong hfields hbefore hlong =>
    have hfirst := List.findSome?_eq_some_iff.mpr ⟨_, _, _, hfields,
      checkLength_eq_some_iff.mpr ⟨hlong, rfl⟩,
      fun f hf => (checkLength_eq_none_iff_fits f).mpr (hbefore f hf)⟩
    rw [ofWords_four, hfirst]
  | unsupported hfits hkind =>
    have hnone := List.findSome?_eq_none_iff.mpr
      fun f hf => (checkLength_eq_none_iff_fits f).mpr (hfits f hf)
    rw [ofWords_four, hnone]
    dsimp only
    rw [ofName?_eq_none_iff.mpr hkind]
  | directive hfits =>
    have hnone := List.findSome?_eq_none_iff.mpr
      fun f hf => (checkLength_eq_none_iff_fits f).mpr (hfits f hf)
    rw [ofWords_four, hnone]
    dsimp only
    rw [ProbeKind.ofName?_name]

theorem spelled_ofWords (n : Nat) (ws : List String) : Spelled n ws (ofWords n ws) := by
  by_cases hcount : ws.length = 4
  · obtain ⟨p, g, k, t, rfl⟩ : ∃ p g k t, ws = [p, g, k, t] := by
      match ws, hcount with
      | [p, g, k, t], _ => exact ⟨p, g, k, t, rfl⟩
    rw [ofWords_four]
    cases hfirst : (fieldsOf p g k t).findSome? fun f => checkLength f.1 f.2 with
    | some reason =>
      obtain ⟨before, ⟨field, value⟩, after, hfields, hchecked, hbefore⟩ :=
        List.findSome?_eq_some_iff.mp hfirst
      obtain ⟨hlong, rfl⟩ := checkLength_eq_some_iff.mp hchecked
      exact .tooLong hfields
        (fun f hf => (checkLength_eq_none_iff_fits f).mp (hbefore f hf)) hlong
    | none =>
      have hfits : ∀ f ∈ fieldsOf p g k t, Fits f := fun f hf =>
        (checkLength_eq_none_iff_fits f).mp (List.findSome?_eq_none_iff.mp hfirst f hf)
      dsimp only
      cases hkind : ProbeKind.ofName? k with
      | none => exact .unsupported hfits (ofName?_eq_none_iff.mp hkind)
      | some kind =>
        obtain rfl := ProbeKind.name_of_ofName? hkind
        exact .directive hfits
  · have hspelled := Spelled.count (n := n) hcount
    rwa [← hspelled.ofWords_eq] at hspelled

theorem ofWords_eq_iff : ofWords n ws = r ↔ Spelled n ws r := by
  constructor
  · rintro rfl
    exact spelled_ofWords n ws
  · exact Spelled.ofWords_eq

theorem AreWords.forall_isWhiteSpace {cs : List Char} (hws : AreWords cs ws) :
    (∀ c ∈ cs, isWhiteSpace c = true) ↔ ∀ w ∈ ws, ∀ c ∈ w.toList, isWhiteSpace c = true := by
  have hgap {gap : List Char} (hg : ∀ c ∈ gap, c ∈ asciiWhiteSpace) :
      ∀ c ∈ gap, isWhiteSpace c = true := by
    intro c hc
    exact isWhiteSpace_of_isSeparator ((isSeparator_iff c).mpr (hg c hc))
  induction hws with
  | nil hg => exact iff_of_true (hgap hg) (by simp)
  | cons hg _ _ _ _ ih =>
    simp only [List.forall_mem_append, List.forall_mem_cons, ih]
    exact and_iff_right (hgap hg)

theorem areWords_words (s : String) : AreWords s.toList (words s) :=
  areWords_iff.mpr (words_eq_iff.mp rfl)

theorem isIdle_congr (hwords : words s' = words s)
    (hhash : s'.toList.head? = some '#' ↔ s.toList.head? = some '#') : IsIdle s' ↔ IsIdle s := by
  unfold IsIdle
  rw [(areWords_words s').forall_isWhiteSpace, (areWords_words s).forall_isWhiteSpace, hwords,
    hhash]

theorem Verdict.parse_eq {r : Except LineError (Option Directive)}
    (h : Verdict n s (words s) r) : parse n s = r := by
  rw [Line.parse_eq]
  cases h with
  | ignored hidle => rw [if_pos ((isIgnored_iff s).mpr hidle)]
  | rejected hidle hspelled =>
    rw [if_neg fun hignored => hidle ((isIgnored_iff s).mp hignored), hspelled.ofWords_eq]
  | accepted hidle hspelled =>
    rw [if_neg fun hignored => hidle ((isIgnored_iff s).mp hignored), hspelled.ofWords_eq]

theorem verdict_parse (n : Nat) (s : String) : Verdict n s (words s) (parse n s) := by
  rw [Line.parse_eq]
  split
  · rename_i hignored
    exact .ignored ((isIgnored_iff s).mp hignored)
  · rename_i hignored
    have hidle : ¬ IsIdle s := fun hidle => hignored ((isIgnored_iff s).mpr hidle)
    cases hwords : ofWords n (words s) with
    | error reason => exact .rejected hidle (ofWords_eq_iff.mp hwords)
    | ok d => exact .accepted hidle (ofWords_eq_iff.mp hwords)

end

/-- A line is diagnosed by its words and by whether it begins with `#`. -/
theorem parse_diagnosed (n : Nat) (s : String) : Diagnosed n s := by
  refine ⟨areWords_words s, ?_, fun _ => line_of_parse_error, ?_⟩
  · intro r
    constructor
    · rintro rfl
      exact verdict_parse n s
    · exact Verdict.parse_eq
  · intro s' hwords hhash
    apply Verdict.parse_eq
    have hverdict := verdict_parse n s
    rw [hwords]
    generalize parse n s = r at hverdict ⊢
    have hidle := isIdle_congr hwords hhash
    cases hverdict with
    | ignored h => exact .ignored (hidle.mpr h)
    | rejected h hspelled => exact .rejected (fun h' => h (hidle.mp h')) hspelled
    | accepted h hspelled => exact .accepted (fun h' => h (hidle.mp h')) hspelled

-- A vertical tab and a no-break space are words, and still the line is ignored.
example : parse 1 "\x0b \u00a0" = .ok none := by rfl

end ProbeLoader.Line
