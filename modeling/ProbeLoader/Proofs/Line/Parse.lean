import ProbeLoader.Directive.Line
import ProbeLoader.Proofs.Text.Words

/-!
# What reading a line depends on

The end of a line, however it is written, is nothing but separators, so a line is read as its
words and its first character say. A directive comes of exactly four words that keep to their
lengths and name a probe kind.
-/

namespace ProbeLoader.Text

variable {α : Type}

theorem dropEndWhile_append (p : α → Bool) (l : List α) :
    ∃ tail, l = dropEndWhile p l ++ tail ∧ ∀ a ∈ tail, p a = true := by
  refine ⟨(l.reverse.takeWhile p).reverse, ?_, ?_⟩
  · unfold dropEndWhile
    rw [← List.reverse_append, List.takeWhile_append_dropWhile, List.reverse_reverse]
  · intro a ha
    exact List.all_eq_true.mp List.all_takeWhile a (List.mem_reverse.mp ha)

end ProbeLoader.Text

namespace ProbeLoader.Line

open Text

/-- Line feeds and carriage returns, in any order. -/
def IsEnding (tail : List Char) : Prop := ∀ c ∈ tail, c = '\n' ∨ c = '\r'

/-- What is cut off at the end of a line is line feeds and carriage returns. -/
theorem content_append (s : String) :
    ∃ tail : List Char, s.toList = (content s).toList ++ tail ∧ IsEnding tail := by
  obtain ⟨feeds, hs, hfeeds⟩ := dropEndWhile_append (· == '\n') s.toList
  obtain ⟨returns, hs', hreturns⟩ :=
    dropEndWhile_append (· == '\r') (dropEndWhile (· == '\n') s.toList)
  refine ⟨returns ++ feeds, ?_, ?_⟩
  · rw [content, String.toList_ofList, ← List.append_assoc, ← hs', ← hs]
  · intro c hc
    rcases List.mem_append.mp hc with hc | hc
    · exact Or.inr (beq_iff_eq.mp (hreturns c hc))
    · exact Or.inl (beq_iff_eq.mp (hfeeds c hc))

theorem IsEnding.isGap {tail : List Char} (htail : IsEnding tail) : IsGap isSeparator tail := by
  intro c hc
  rcases htail c hc with rfl | rfl <;> rfl

section

variable {s t : String} {tail : List Char}

theorem words_of_ending (hs : s.toList = t.toList ++ tail) (htail : IsEnding tail) :
    words s = words t := by
  unfold words
  rw [hs, runs_append_gap htail.isGap]

theorem isBlank_of_ending (hs : s.toList = t.toList ++ tail) (htail : IsEnding tail) :
    isBlank s = isBlank t := by
  have hblank : tail.all isWhiteSpace = true := by
    apply List.all_eq_true.mpr
    intro c hc
    exact isWhiteSpace_of_isSeparator (htail.isGap c hc)
  unfold isBlank
  rw [hs, List.all_append, hblank, Bool.and_true]

theorem head?_of_ending (hs : s.toList = t.toList ++ tail) (htail : IsEnding tail) :
    s.toList.head? = some '#' ↔ t.toList.head? = some '#' := by
  rw [hs]
  cases t.toList with
  | cons c cs => rfl
  | nil =>
    cases tail with
    | nil => rfl
    | cons c tail => rcases htail c List.mem_cons_self with rfl | rfl <;> simp

theorem isIgnored_of_ending (hs : s.toList = t.toList ++ tail) (htail : IsEnding tail) :
    isIgnored s = isIgnored t := by
  unfold isIgnored
  rw [isBlank_of_ending hs htail, Bool.eq_iff_iff, Bool.or_eq_true, Bool.or_eq_true, beq_iff_eq,
    beq_iff_eq, head?_of_ending hs htail]

end

theorem parse_eq (n : Nat) (s : String) :
    parse n s =
      if isIgnored s then .ok none
      else
        match ofWords n (words s) with
        | .ok d => .ok (some d)
        | .error reason => .error ⟨n, reason⟩ := by
  obtain ⟨tail, hs, htail⟩ := content_append s
  have hignored := (isIgnored_of_ending hs htail).symm
  have hwords := (words_of_ending hs htail).symm
  unfold parse
  cases h : ofWords n (words s) <;> simp [hignored, hwords, h]

/-- A line is read alike with more line feeds and carriage returns at its end. -/
theorem parse_of_ending {s t : String} {tail : List Char} (n : Nat)
    (hs : s.toList = t.toList ++ tail) (htail : IsEnding tail) : parse n s = parse n t := by
  rw [parse_eq, parse_eq, isIgnored_of_ending hs htail, words_of_ending hs htail]

theorem checkLength_eq_none_iff (f : Field) (value : String) :
    checkLength f value = none ↔ (Utf8.encode value).length ≤ f.limit := by
  unfold checkLength
  dsimp only
  split <;> simp [*]

/-- Words spell a directive out if they are four, keep to their lengths and name a kind. -/
theorem ofWords_eq_ok_iff {n : Nat} {ws : List String} {d : Directive} :
    ofWords n ws = .ok d ↔ ∃ pinPath programName kind target k,
      ws = [pinPath, programName, kind, target] ∧
      ((Utf8.encode pinPath).length ≤ 255 ∧ (Utf8.encode programName).length ≤ 63 ∧
        (Utf8.encode kind).length ≤ 15 ∧ (Utf8.encode target).length ≤ 63) ∧
      ProbeKind.ofName? kind = some k ∧
      d = ⟨n, .ofString pinPath, programName, k, target⟩ := by
  constructor
  · intro h
    unfold ofWords at h
    split at h
    · rename_i pinPath programName kind target
      dsimp only at h
      split at h
      · exact nomatch h
      · rename_i hlengths
        simp only [Option.or_eq_none_iff, checkLength_eq_none_iff] at hlengths
        split at h
        · exact nomatch h
        · rename_i k hk
          exact ⟨pinPath, programName, kind, target, k, rfl, hlengths, hk,
            (Except.ok.inj h).symm⟩
    · exact nomatch h
  · rintro ⟨pinPath, programName, kind, target, k, rfl, hlengths, hk, rfl⟩
    have hnone : (checkLength .pinPath pinPath).or ((checkLength .programName programName).or
        ((checkLength .probeKind kind).or (checkLength .target target))) = none := by
      simp only [Option.or_eq_none_iff, checkLength_eq_none_iff]
      exact hlengths
    simp only [ofWords, hnone, hk]

theorem parse_eq_ok_some_iff {n : Nat} {s : String} {d : Directive} :
    parse n s = .ok (some d) ↔ isIgnored s = false ∧ ofWords n (words s) = .ok d := by
  rw [parse_eq]
  cases isIgnored s with
  | true => simp
  | false => cases ofWords n (words s) <;> simp

theorem line_of_parse {n : Nat} {s : String} {d : Directive} (h : parse n s = .ok (some d)) :
    d.line = n := by
  obtain ⟨_, _, _, _, _, _, _, _, rfl⟩ := ofWords_eq_ok_iff.mp (parse_eq_ok_some_iff.mp h).2
  rfl

theorem line_of_parse_error {n : Nat} {s : String} {e : LineError} (h : parse n s = .error e) :
    e.line = n := by
  rw [parse_eq] at h
  split at h
  · exact nomatch h
  · split at h
    · exact nomatch h
    · rw [← Except.error.inj h]

theorem head?_ne_of_not_isIgnored {s : String} (h : isIgnored s = false) :
    s.toList.head? ≠ some '#' := by
  unfold isIgnored at h
  rw [Bool.or_eq_false_iff] at h
  exact beq_eq_false_iff_ne.mp h.1

/-- A line with a character that is no white space is ignored only as a comment. -/
theorem isIgnored_eq_false {s : String} {c : Char} (hc : c ∈ s.toList)
    (hblank : isWhiteSpace c = false) (hhash : s.toList.head? ≠ some '#') :
    isIgnored s = false := by
  unfold isIgnored
  rw [Bool.or_eq_false_iff]
  refine ⟨beq_eq_false_iff_ne.mpr hhash, ?_⟩
  apply Bool.eq_false_iff.mpr
  intro hall
  exact Bool.false_ne_true (hblank.symm.trans (List.all_eq_true.mp hall c hc))

end ProbeLoader.Line
