import ProbeLoader.Proofs.Config.Lines

/-!
# Reading up to a cap

A cap of `n` lets the lines be read that come before the `n`-th directive, and that of the
directive itself. What was read that way is the beginning of what is read without a cap: the first
`n` directives and the warnings about the lines before the last of them. The next line, whatever it
holds, is only noticed, and all others are not even that.
-/

namespace ProbeLoader

namespace Reading

/-- The directives of lines of which the first one has a number. -/
def acceptedIn (number : Nat) (ls : List (List UInt8)) : List Directive :=
  (fates number ls).filterMap accepted?

/-- The rejected ones of lines of which the first one has a number. -/
def rejectedIn (number : Nat) (ls : List (List UInt8)) : List LineError :=
  (fates number ls).filterMap rejected?

/-- Lines that are all read while there is room for so many directives. -/
inductive Fits : (room number : Nat) → List (List UInt8) → Prop where
  | nil {room number : Nat} : Fits room number []
  | accepted {room number : Nat} {l : List UInt8} {ls : List (List UInt8)} {d : Directive} :
      Line.parseBytes number l = .ok (some d) → Fits room (number + 1) ls →
      Fits (room + 1) number (l :: ls)
  | passed {room number : Nat} {l : List UInt8} {ls : List (List UInt8)} :
      accepted? (Line.parseBytes number l) = none → Fits (room + 1) (number + 1) ls →
      Fits (room + 1) number (l :: ls)

/-- Whether the last one of these lines is accepted. -/
def EndsAccepted (number : Nat) (ls : List (List UInt8)) : Prop :=
  ∃ init l d, ls = init ++ [l] ∧ Line.parseBytes (number + init.length) l = .ok (some d)

section

variable (number : Nat) (l : List UInt8) (ls rs : List (List UInt8))

theorem fates_append :
    fates number (ls ++ rs) = fates number ls ++ fates (number + ls.length) rs := by
  unfold fates
  rw [List.zipIdx_append, List.map_append, Nat.add_comm]

theorem acceptedIn_append : acceptedIn number (ls ++ rs) =
    acceptedIn number ls ++ acceptedIn (number + ls.length) rs := by
  unfold acceptedIn
  rw [fates_append, List.filterMap_append]

theorem rejectedIn_append : rejectedIn number (ls ++ rs) =
    rejectedIn number ls ++ rejectedIn (number + ls.length) rs := by
  unfold rejectedIn
  rw [fates_append, List.filterMap_append]

theorem acceptedIn_cons : acceptedIn number (l :: ls) =
    (accepted? (Line.parseBytes number l)).toList ++ acceptedIn (number + 1) ls := by
  unfold acceptedIn
  rw [fates_cons, List.filterMap_cons]
  cases accepted? (Line.parseBytes number l) <;> rfl

theorem rejectedIn_cons : rejectedIn number (l :: ls) =
    (rejected? (Line.parseBytes number l)).toList ++ rejectedIn (number + 1) ls := by
  unfold rejectedIn
  rw [fates_cons, List.filterMap_cons]
  cases rejected? (Line.parseBytes number l) <;> rfl

end

theorem accepted?_eq_some_iff {fate : Except LineError (Option Directive)} {d : Directive} :
    accepted? fate = some d ↔ fate = .ok (some d) := by
  cases fate with
  | error e => simp [accepted?]
  | ok o => simp [accepted?]

theorem rejected?_eq_some_iff {fate : Except LineError (Option Directive)} {e : LineError} :
    rejected? fate = some e ↔ fate = .error e := by
  cases fate with
  | error e => simp [rejected?]
  | ok o => simp [rejected?]

theorem length_fates (number : Nat) (ls : List (List UInt8)) :
    (fates number ls).length = ls.length := by
  simp [fates]

section

variable {room number : Nat} {ls : List (List UInt8)}

/-- What comes of lines carries the number of one of them. -/
theorem line_of_mem_fates {fate : Except LineError (Option Directive)}
    (hfate : fate ∈ fates number ls) :
    ∃ m, number ≤ m ∧ m < number + ls.length ∧
      (∀ d, fate = .ok (some d) → d.line = m) ∧ ∀ e, fate = .error e → e.line = m := by
  obtain ⟨k, hk⟩ := List.mem_iff_getElem?.mp hfate
  have hlt := (List.getElem?_eq_some_iff.mp hk).1
  rw [length_fates] at hlt
  exact ⟨number + k, Nat.le_add_right _ _, Nat.add_lt_add_left hlt _, line_of_getElem?_fates hk⟩

theorem line_of_mem_acceptedIn {d : Directive} (hd : d ∈ acceptedIn number ls) :
    d.line < number + ls.length := by
  obtain ⟨fate, hfate, haccepted⟩ := List.mem_filterMap.mp hd
  obtain ⟨m, _, hlt, hline, _⟩ := line_of_mem_fates hfate
  rwa [hline d (accepted?_eq_some_iff.mp haccepted)]

theorem line_of_mem_rejectedIn {e : LineError} (he : e ∈ rejectedIn number ls) :
    number ≤ e.line ∧ e.line < number + ls.length := by
  obtain ⟨fate, hfate, hrejected⟩ := List.mem_filterMap.mp he
  obtain ⟨m, hle, hlt, _, hline⟩ := line_of_mem_fates hfate
  rw [hline e (rejected?_eq_some_iff.mp hrejected)]
  exact ⟨hle, hlt⟩

/-- Lines that fit are read as they are without a cap. -/
theorem Fits.ofItems_append (source : ConfigSource) (count : Nat) (rest : List Stream.Item)
    (hfits : Fits room number ls) :
    ofItems source (some (count + room)) count number (ls.map .line ++ rest) =
      let r := ofItems source (some (count + room)) (count + (acceptedIn number ls).length)
        (number + ls.length) rest
      ⟨(rejectedIn number ls).map (skipped source) ++ r.log, acceptedIn number ls ++ r.directives,
        r.failure⟩ := by
  induction hfits generalizing count with
  | nil => rfl
  | @accepted room number l ls d hl _ ih =>
    have hroom : isFull (some (count + (room + 1))) count = false := by simp [isFull]
    have hcap : count + 1 + room = count + (room + 1) := by omega
    have hih := ih (count + 1)
    rw [hcap] at hih
    rw [acceptedIn_cons, rejectedIn_cons]
    simp only [List.map_cons, List.cons_append, ofItems, hroom, hl, hih]
    simp [accepted?, rejected?, Nat.add_assoc, Nat.add_comm 1]
  | @passed room number l ls hl _ ih =>
    have hroom : isFull (some (count + (room + 1))) count = false := by simp [isFull]
    rw [acceptedIn_cons, rejectedIn_cons, hl]
    simp only [List.map_cons, List.cons_append, ofItems, hroom, ih]
    cases hfate : Line.parseBytes number l with
    | error e => simp [rejected?, Nat.add_assoc, Nat.add_comm 1]
    | ok o =>
      obtain rfl : o = none := by rwa [hfate] at hl
      simp [rejected?, Nat.add_assoc, Nat.add_comm 1]

theorem Fits.length_le (hfits : Fits room number ls) : (acceptedIn number ls).length ≤ room := by
  induction hfits with
  | nil => exact Nat.zero_le _
  | accepted hl _ ih =>
    rw [acceptedIn_cons, accepted?_eq_some_iff.mpr hl]
    exact Nat.succ_le_succ ih
  | passed hl _ ih => rwa [acceptedIn_cons, hl]

/-- Of any lines so many can be read that nothing is left over or the room is used up. -/
theorem exists_fits (room number : Nat) (ls : List (List UInt8)) :
    ∃ used rest, ls = used ++ rest ∧ Fits room number used ∧
      (rest = [] ∨ (acceptedIn number used).length = room) := by
  induction ls generalizing room number with
  | nil => exact ⟨[], [], rfl, .nil, Or.inl rfl⟩
  | cons l ls ih =>
    cases room with
    | zero => exact ⟨[], l :: ls, rfl, .nil, Or.inr rfl⟩
    | succ room =>
      cases hl : accepted? (Line.parseBytes number l) with
      | some d =>
        obtain ⟨used, rest, rfl, hfits, hrest⟩ := ih room (number + 1)
        refine ⟨l :: used, rest, rfl, .accepted (accepted?_eq_some_iff.mp hl) hfits, ?_⟩
        rw [acceptedIn_cons, hl]
        exact hrest.imp_right (congrArg (· + 1))
      | none =>
        obtain ⟨used, rest, rfl, hfits, hrest⟩ := ih (room + 1) (number + 1)
        refine ⟨l :: used, rest, rfl, .passed hl hfits, ?_⟩
        rw [acceptedIn_cons, hl]
        exact hrest

theorem EndsAccepted.cons (h : EndsAccepted (number + 1) ls) (l : List UInt8) :
    EndsAccepted number (l :: ls) := by
  obtain ⟨init, last, d, rfl, hlast⟩ := h
  refine ⟨l :: init, last, d, rfl, ?_⟩
  rwa [List.length_cons, Nat.add_comm init.length, ← Nat.add_assoc]

/-- The line that uses the room up is the last one that fits. -/
theorem Fits.endsAccepted (hfits : Fits room number ls) (hroom : room ≠ 0)
    (hfull : (acceptedIn number ls).length = room) : EndsAccepted number ls := by
  induction hfits with
  | nil => exact absurd hfull.symm hroom
  | @accepted room number l ls d hl hfits ih =>
    cases ls with
    | nil => exact ⟨[], l, d, rfl, hl⟩
    | cons m ls =>
      have hrest : (acceptedIn (number + 1) (m :: ls)).length = room := by
        rw [acceptedIn_cons, accepted?_eq_some_iff.mpr hl] at hfull
        exact Nat.succ.inj hfull
      have hne : room ≠ 0 := by
        cases hfits <;> exact Nat.succ_ne_zero _
      exact (ih hne hrest).cons l
  | @passed room number l ls hl hfits ih =>
    have hrest : (acceptedIn (number + 1) ls).length = room + 1 := by
      rwa [acceptedIn_cons, hl] at hfull
    exact (ih hroom hrest).cons l

theorem Fits.eq_nil_of_zero (hfits : Fits 0 number ls) : ls = [] := by
  cases hfits
  rfl

theorem acceptedIn_concat {init : List (List UInt8)} {l : List UInt8} {d : Directive}
    (hl : Line.parseBytes (number + init.length) l = .ok (some d)) :
    acceptedIn number (init ++ [l]) = acceptedIn number init ++ [d] := by
  rw [acceptedIn_append, acceptedIn_cons, accepted?_eq_some_iff.mpr hl]
  rfl

theorem rejectedIn_concat {init : List (List UInt8)} {l : List UInt8} {d : Directive}
    (hl : Line.parseBytes (number + init.length) l = .ok (some d)) :
    rejectedIn number (init ++ [l]) = rejectedIn number init := by
  rw [rejectedIn_append, rejectedIn_cons, hl]
  exact List.append_nil _

end

/-- The number of the line that brings directives to a cap, none being needed for a cap of 0. -/
def capLine? (ds : List Directive) : (cap : Nat) → Option Nat
  | 0 => some 0
  | n + 1 => ds[n]?.map (·.line)

theorem capLine?_eq_none_iff {ds : List Directive} {n : Nat} :
    capLine? ds n = none ↔ ds.length < n := by
  cases n with
  | zero => simp [capLine?]
  | succ n => rw [capLine?, Option.map_eq_none_iff, List.getElem?_eq_none_iff, Nat.lt_succ_iff]

section

variable {n : Nat} {used rest : List (List UInt8)}

/-- The lines that a cap lets be read end with the line that reaches it. -/
theorem Fits.capLine?_eq (hfits : Fits n 1 used) (hfull : (acceptedIn 1 used).length = n) :
    capLine? (acceptedIn 1 (used ++ rest)) n = some used.length := by
  cases n with
  | zero =>
    obtain rfl := hfits.eq_nil_of_zero
    rfl
  | succ n =>
    obtain ⟨init, l, d, rfl, hl⟩ := hfits.endsAccepted (Nat.succ_ne_zero n) hfull
    have hline : d.line = 1 + init.length := (fate_iff.mpr hl.symm).line_eq.1 d rfl
    rw [acceptedIn_concat hl, List.length_append, List.length_singleton] at hfull
    have hinit : (acceptedIn 1 init).length = n := Nat.succ.inj hfull
    rw [capLine?, acceptedIn_append, acceptedIn_concat hl, List.append_assoc, ← hinit,
      List.getElem?_append_right (Nat.le_refl _), Nat.sub_self, List.singleton_append,
      List.getElem?_cons_zero, Option.map_some, hline, List.length_append, List.length_singleton,
      Nat.add_comm]

/-- The rejected lines that a cap lets be read are those before the line that reaches it. -/
theorem Fits.rejectedIn_eq (hfits : Fits n 1 used) (hfull : (acceptedIn 1 used).length = n) :
    rejectedIn 1 used = (rejectedIn 1 (used ++ rest)).filter fun e => e.line < used.length := by
  have hused : ∀ e ∈ rejectedIn 1 used, e.line < used.length := by
    cases n with
    | zero =>
      obtain rfl := hfits.eq_nil_of_zero
      exact fun e he => absurd he List.not_mem_nil
    | succ n =>
      obtain ⟨init, l, d, rfl, hl⟩ := hfits.endsAccepted (Nat.succ_ne_zero n) hfull
      intro e he
      rw [rejectedIn_concat hl] at he
      have hline := (line_of_mem_rejectedIn he).2
      rw [List.length_append, List.length_singleton]
      omega
  have hrest : ∀ e ∈ rejectedIn (1 + used.length) rest, ¬ e.line < used.length := by
    intro e he
    have hline := (line_of_mem_rejectedIn he).1
    omega
  rw [rejectedIn_append, List.filter_append, List.filter_eq_self.mpr, List.filter_eq_nil_iff.mpr,
    List.append_nil]
  · simpa using hrest
  · simpa using hused

variable {bytes : List UInt8}

theorem reading_eq_of_fits (source : ConfigSource) (hls : linesOf bytes = used ++ rest)
    (hfits : Fits n 1 used) (hrest : rest = [] ∨ (acceptedIn 1 used).length = n) :
    (Stream.mk bytes none).reading source (some n) =
      ⟨(rejectedIn 1 used).map (skipped source) ++ if rest = [] then [] else [capped source n],
        acceptedIn 1 used, none⟩ := by
  have hread := hfits.ofItems_append source 0 (rest.map .line)
  rw [Nat.zero_add, Nat.zero_add] at hread
  unfold Stream.reading
  rw [items_eq_map_line, hls, List.map_append, hread]
  cases rest with
  | nil => simp [ofItems]
  | cons l rest =>
    have hfull := hrest.resolve_left (List.cons_ne_nil l rest)
    simp [ofItems, isFull, hfull]

end

/-- What is read of bytes without a cap. -/
def uncapped (bytes : List UInt8) (source : ConfigSource) : Reading :=
  (Stream.mk bytes none).reading source none

/-- What a cap of `n` leaves of what is read without one. -/
structure CapKept (bytes : List UInt8) (source : ConfigSource) (n : Nat) : Prop where
  /-- The first `n` directives are the result, unless there is none. -/
  result : (Stream.mk bytes none).directives source (some n) =
    if (uncapped bytes source).directives.take n = [] then .error (.noDirectives source.shown)
    else .ok ((uncapped bytes source).directives.take n)
  /-- Without a cap every rejected line is warned about. -/
  warnings : (uncapped bytes source).log = (rejectedIn 1 (linesOf bytes)).map (skipped source)
  /-- A cap that is not reached changes nothing in the log. -/
  unreached : (uncapped bytes source).directives.length < n →
    ((Stream.mk bytes none).reading source (some n)).log = (uncapped bytes source).log
  /-- With a cap that is reached on line `k`, the rejected lines before that one are warned about,
  and then, if there is another line, it is said that the rest is ignored. -/
  reached : n ≤ (uncapped bytes source).directives.length →
    ∃ k, capLine? (uncapped bytes source).directives n = some k ∧
      ((Stream.mk bytes none).reading source (some n)).log =
        (((rejectedIn 1 (linesOf bytes)).filter fun e => e.line < k).map (skipped source)) ++
          if k < (linesOf bytes).length then
            [.warn (s!"Only the first {n} probe configuration(s) are used, " ++
              s!"ignoring the rest of {source.shown}")]
          else []
  /-- Whatever else stands after line `k`, it is not looked at. -/
  unread : ∀ k bytes', capLine? (uncapped bytes source).directives n = some k →
    (linesOf bytes').take k = (linesOf bytes).take k →
    (k < (linesOf bytes').length ↔ k < (linesOf bytes).length) →
    (Stream.mk bytes' none).reading source (some n) = (Stream.mk bytes none).reading source (some n)
  /-- A cap of 0 is exceeded by any input. -/
  nonempty : 0 < (linesOf bytes).length ↔ bytes ≠ []

theorem linesOf_eq_nil_iff {bytes : List UInt8} : linesOf bytes = [] ↔ bytes = [] := by
  constructor
  · intro h
    have hjoin : [Stream.lineFeed].intercalate (bytes.splitOn Stream.lineFeed) = bytes :=
      List.intercalate_splitOn _
    have hne : bytes.splitOn Stream.lineFeed ≠ [] := List.splitOn_ne_nil _ _
    obtain ⟨init, last, hparts⟩ := (List.eq_nil_or_concat' _).resolve_left hne
    unfold linesOf at h
    rw [hparts] at h hjoin
    cases last with
    | nil =>
      obtain rfl : init = [] := by simpa using h
      exact hjoin.symm
    | cons b last => simp at h
  · rintro rfl
    rfl

section

variable {n : Nat} {used rest : List (List UInt8)} {bytes : List UInt8}

theorem acceptedIn_eq_take (hfits : Fits n 1 used)
    (hrest : rest = [] ∨ (acceptedIn 1 used).length = n) :
    acceptedIn 1 used = (acceptedIn 1 (used ++ rest)).take n := by
  rcases hrest with rfl | hfull
  · rw [List.append_nil, List.take_of_length_le hfits.length_le]
  · rw [acceptedIn_append, ← hfull, List.take_left]

theorem length_lt_length_linesOf_iff (hls : linesOf bytes = used ++ rest) :
    used.length < (linesOf bytes).length ↔ rest ≠ [] := by
  rw [hls, List.length_append, Nat.lt_add_right_iff_pos, List.length_pos_iff]

theorem log_eq_of_full (source : ConfigSource) (hls : linesOf bytes = used ++ rest)
    (hfits : Fits n 1 used) (hfull : (acceptedIn 1 used).length = n) :
    ((Stream.mk bytes none).reading source (some n)).log =
      (((rejectedIn 1 (linesOf bytes)).filter fun e => e.line < used.length).map
        (skipped source)) ++
        if used.length < (linesOf bytes).length then [capped source n] else [] := by
  have hrejected : rejectedIn 1 used =
      (rejectedIn 1 (linesOf bytes)).filter fun e => e.line < used.length := by
    rw [hls]
    exact hfits.rejectedIn_eq hfull
  rw [reading_eq_of_fits source hls hfits (Or.inr hfull), hrejected]
  simp only [length_lt_length_linesOf_iff hls, ne_eq, ite_not]

/-- Inputs that begin with the same lines up to the cap are read alike. -/
theorem reading_eq_of_take_eq (source : ConfigSource) (hls : linesOf bytes = used ++ rest)
    (hfits : Fits n 1 used) (hfull : (acceptedIn 1 used).length = n) {bytes' : List UInt8}
    (hsame : (linesOf bytes').take used.length = (linesOf bytes).take used.length)
    (hmore : used.length < (linesOf bytes').length ↔ used.length < (linesOf bytes).length) :
    (Stream.mk bytes' none).reading source (some n) =
      (Stream.mk bytes none).reading source (some n) := by
  have hused : (linesOf bytes').take used.length = used := by rw [hsame, hls, List.take_left]
  have hls' : linesOf bytes' = used ++ (linesOf bytes').drop used.length := by
    calc linesOf bytes'
      _ = (linesOf bytes').take used.length ++ (linesOf bytes').drop used.length :=
          (List.take_append_drop _ _).symm
      _ = used ++ (linesOf bytes').drop used.length := by rw [hused]
  have hnil : (linesOf bytes').drop used.length = [] ↔ rest = [] := by
    rw [length_lt_length_linesOf_iff hls, length_lt_length_linesOf_iff hls'] at hmore
    exact not_iff_not.mp hmore
  rw [reading_eq_of_fits source hls hfits (Or.inr hfull),
    reading_eq_of_fits source hls' hfits (Or.inr hfull)]
  simp only [hnil]

theorem uncapped_eq (bytes : List UInt8) (source : ConfigSource) : uncapped bytes source =
    ⟨(rejectedIn 1 (linesOf bytes)).map (skipped source), acceptedIn 1 (linesOf bytes), none⟩ :=
  reading_eq bytes source

end

/-- A cap takes the first directives of what is read without it and the warnings about the lines
before the last of them. The line after that one is noticed, and no other. -/
theorem reading_capKept (bytes : List UInt8) (source : ConfigSource) (n : Nat) :
    CapKept bytes source n := by
  obtain ⟨used, rest, hls, hfits, hrest⟩ := exists_fits n 1 (linesOf bytes)
  have hdirectives : (uncapped bytes source).directives = acceptedIn 1 (used ++ rest) := by
    rw [uncapped_eq, hls]
  have hwarnings : (uncapped bytes source).log =
      (rejectedIn 1 (linesOf bytes)).map (skipped source) := by
    rw [uncapped_eq]
  have htake : acceptedIn 1 used = (uncapped bytes source).directives.take n := by
    rw [hdirectives, acceptedIn_eq_take hfits hrest]
  have hread := reading_eq_of_fits source hls hfits hrest
  -- The cap is reached if and only if the lines that fit hold `n` directives.
  have hfull (hle : n ≤ (uncapped bytes source).directives.length) :
      (acceptedIn 1 used).length = n := by
    rw [htake, List.length_take, Nat.min_eq_left hle]
  have hline (hle : n ≤ (uncapped bytes source).directives.length) :
      capLine? (uncapped bytes source).directives n = some used.length := by
    rw [hdirectives]
    exact hfits.capLine?_eq (hfull hle)
  refine ⟨?_, hwarnings, ?_, ?_, ?_, ?_⟩
  · unfold Stream.directives
    rw [hread, ← htake]
    unfold result
    cases hused : acceptedIn 1 used with
    | nil => simp
    | cons d ds => simp
  · intro hlt
    obtain rfl : rest = [] := by
      rcases hrest with hnil | hlength
      · exact hnil
      · rw [htake, List.length_take] at hlength
        omega
    rw [List.append_nil] at hls
    rw [hread, hwarnings, hls]
    exact List.append_nil _
  · intro hle
    exact ⟨used.length, hline hle, log_eq_of_full source hls hfits (hfull hle)⟩
  · intro k bytes' hk hsame hmore
    have hle : n ≤ (uncapped bytes source).directives.length := by
      by_contra hlt
      rw [capLine?_eq_none_iff.mpr (Nat.lt_of_not_le hlt)] at hk
      exact nomatch hk
    obtain rfl : used.length = k := Option.some.inj ((hline hle).symm.trans hk)
    exact reading_eq_of_take_eq source hls hfits (hfull hle) hsame hmore
  · rw [List.length_pos_iff, ne_eq, linesOf_eq_nil_iff]

end Reading

end ProbeLoader
