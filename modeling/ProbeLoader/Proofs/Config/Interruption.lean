import ProbeLoader.Proofs.Config.Delivered

/-!
# Readings that are cut short

A stream may fail anywhere: between lines, within one or within a character. What has been ended by
a line feed until then are lines, which are accepted or warned about as ever. The bytes behind the
last line feed are no line, whatever they look like, and nobody looks at them. As long as a cap
does not stop the reading first, the failure is its result, with or without directives.
-/

namespace ProbeLoader

namespace Reading

open ProbeLoader.Stream

/-- Bytes as the lines that a line feed has ended and the rest behind the last of them. -/
structure IsCut (bytes : List UInt8) (ls : List (List UInt8)) (rest : List UInt8) : Prop where
  bytes_eq : bytes = ls.flatMap (fun l => l ++ [lineFeed]) ++ rest
  ended : ∀ l ∈ ls, lineFeed ∉ l
  unended : lineFeed ∉ rest

/-- Whether a cap is larger than the number of directives among fates. -/
def HasRoom (cap : Option Nat) (fates : List (Except LineError (Option Directive))) : Prop :=
  ∀ n, cap = some n → (fates.filterMap accepted?).length < n

/-- What comes of bytes that end in a failure, given the lines that were ended, the rest and the
fates of the lines. -/
structure Interrupted (bytes : List UInt8) (message : String) (source : ConfigSource)
    (ls : List (List UInt8)) (rest : List UInt8)
    (fates : List (Except LineError (Option Directive))) : Prop where
  cut : IsCut bytes ls rest
  cut_unique : ∀ ls' rest', IsCut bytes ls' rest' → ls' = ls ∧ rest' = rest
  fated : ∀ fs, List.Forall₂ (fun line fate => Fate line.2 line.1 fate) (ls.zipIdx 1) fs ↔ fs = fates
  result : ∀ cap, HasRoom cap fates → (Stream.mk bytes (some message)).directives source cap =
    .error (.cannotRead source.shown message)
  accepted : ∀ cap, HasRoom cap fates →
    ((Stream.mk bytes (some message)).reading source cap).directives = fates.filterMap accepted?
  log : ∀ cap, HasRoom cap fates → ((Stream.mk bytes (some message)).reading source cap).log =
    (fates.filterMap rejected?).map fun e =>
      .warn s!"Skipping {source.shown} line {e.line}: {e.reason.message}"
  /-- Only the lines that were ended count, under any cap. -/
  rest_unread : ∀ cap bytes' rest', IsCut bytes' ls rest' →
    (Stream.mk bytes' (some message)).directives source cap =
        (Stream.mk bytes (some message)).directives source cap ∧
      ((Stream.mk bytes' (some message)).reading source cap).log =
        ((Stream.mk bytes (some message)).reading source cap).log

section

variable {bytes rest : List UInt8} {ls : List (List UInt8)}

/-- A byte in front belongs to the first line, or to the rest if there is none. -/
theorem IsCut.cons (hcut : IsCut bytes ls rest) (b : UInt8) :
    ∃ ls' rest', IsCut (b :: bytes) ls' rest' := by
  obtain ⟨rfl, hended, hunended⟩ := hcut
  by_cases hb : b = lineFeed
  · subst hb
    refine ⟨[] :: ls, rest, rfl, ?_, hunended⟩
    intro l hl
    rcases List.mem_cons.mp hl with rfl | hl
    · exact List.not_mem_nil
    · exact hended l hl
  · have hfree {l : List UInt8} (hl : lineFeed ∉ l) : lineFeed ∉ b :: l :=
      List.not_mem_cons_of_ne_of_not_mem (Ne.symm hb) hl
    cases ls with
    | nil => exact ⟨[], b :: rest, rfl, hended, hfree hunended⟩
    | cons first ls =>
      obtain ⟨hfirst, hended⟩ := List.forall_mem_cons.mp hended
      refine ⟨(b :: first) :: ls, rest, rfl, ?_, hunended⟩
      exact List.forall_mem_cons.mpr ⟨hfree hfirst, hended⟩

theorem exists_isCut (bytes : List UInt8) : ∃ ls rest, IsCut bytes ls rest := by
  induction bytes with
  | nil => exact ⟨[], [], rfl, fun l hl => absurd hl List.not_mem_nil, List.not_mem_nil⟩
  | cons b bytes ih =>
    obtain ⟨ls, rest, hcut⟩ := ih
    exact hcut.cons b

theorem IsCut.segments_eq (hcut : IsCut bytes ls rest) :
    Text.segments (· == lineFeed) bytes = ls ++ [rest] := by
  have hwhole {l : List UInt8} (hl : lineFeed ∉ l) : Text.segments (· == lineFeed) l = [l] := by
    apply Text.segments_eq_singleton
    intro b hb
    exact beq_eq_false_iff_ne.mpr fun heq => hl (heq ▸ hb)
  obtain ⟨rfl, hended, hunended⟩ := hcut
  induction ls with
  | nil => exact hwhole hunended
  | cons l ls ih =>
    obtain ⟨hl, hended⟩ := List.forall_mem_cons.mp hended
    rw [List.flatMap_cons, List.append_assoc, List.append_assoc, List.singleton_append,
      Text.segments_append_cons (· == lineFeed) rfl, hwhole hl, ih hended]
    rfl

theorem IsCut.unique (hcut : IsCut bytes ls rest) {ls' : List (List UInt8)} {rest' : List UInt8}
    (hcut' : IsCut bytes ls' rest') : ls' = ls ∧ rest' = rest := by
  have hparts := hcut'.segments_eq.symm.trans hcut.segments_eq
  obtain ⟨hls, hrest⟩ := List.append_inj' hparts rfl
  exact ⟨hls, (List.cons.inj hrest).1⟩

/-- What a stream delivers before it fails is the lines that were ended. -/
theorem IsCut.delivered_eq (hcut : IsCut bytes ls rest) (message : String) :
    (Stream.mk bytes (some message)).delivered = ls := by
  unfold delivered
  dsimp only
  rw [← Text.segments_eq_splitOn, hcut.segments_eq, List.dropLast_concat]

theorem IsCut.reading_congr (hcut : IsCut bytes ls rest) {bytes' rest' : List UInt8}
    (hcut' : IsCut bytes' ls rest') (message : String) (source : ConfigSource) (cap : Option Nat) :
    (Stream.mk bytes' (some message)).reading source cap =
      (Stream.mk bytes (some message)).reading source cap := by
  unfold Stream.reading
  rw [items_eq_delivered, items_eq_delivered, hcut.delivered_eq, hcut'.delivered_eq]

/-- Under a cap that is not reached all lines are read, and then the failure is met. -/
theorem IsCut.reading_eq (hcut : IsCut bytes ls rest) (message : String) (source : ConfigSource)
    {cap : Option Nat} (hroom : HasRoom cap (fates 1 ls)) :
    (Stream.mk bytes (some message)).reading source cap =
      ⟨(rejectedIn 1 ls).map (skipped source), acceptedIn 1 ls, some message⟩ := by
  have hdelivered := hcut.delivered_eq message
  cases cap with
  | none =>
    unfold Stream.reading
    rw [items_eq_delivered, hdelivered]
    exact ofItems_none source 0 1 ls (some message)
  | some n =>
    have hlt : (acceptedIn 1 ls).length < n := hroom n rfl
    obtain ⟨used, unread, rfl, hfits, hunread⟩ := exists_fits n 1 ls
    -- Lines that use the cap up hold too many directives, so none is left unread.
    obtain rfl : unread = [] := by
      rcases hunread with hnil | hfull
      · exact hnil
      · rw [acceptedIn_append, List.length_append, hfull] at hlt
        omega
    rw [reading_of_fits source hdelivered hfits hunread]
    simp

end

/-- A failure to read on is the result as long as no cap stops the reading before it, whatever was
accepted. The log is the warnings about the lines that were ended, and the bytes behind the last
line feed have no part in anything. -/
theorem reading_interrupted (bytes : List UInt8) (message : String) (source : ConfigSource) :
    ∃ ls rest fates, Interrupted bytes message source ls rest fates := by
  obtain ⟨ls, rest, hcut⟩ := exists_isCut bytes
  have hread {cap : Option Nat} (hroom : HasRoom cap (fates 1 ls)) :=
    hcut.reading_eq message source hroom
  refine ⟨ls, rest, fates 1 ls, hcut, ?_, ?_, ?_, ?_, ?_, ?_⟩
  · intro ls' rest' hcut'
    exact hcut.unique hcut'
  · intro fs
    exact forall₂_fate_iff
  · intro cap hroom
    unfold Stream.directives
    rw [hread hroom]
    rfl
  · intro cap hroom
    rw [hread hroom]
    rfl
  · intro cap hroom
    rw [hread hroom]
    apply List.map_congr_left
    intro e _
    exact skipped_eq source e
  · intro cap bytes' rest' hcut'
    unfold Stream.directives
    rw [hcut.reading_congr hcut' message source cap]
    exact ⟨rfl, rfl⟩

end Reading

end ProbeLoader
