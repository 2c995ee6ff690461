import ProbeLoader.Proofs.Config.Cap

/-!
# How a reading ends

A stream delivers the lines that are complete before it ends or fails, and a cap may stop the
reading before all of them are read. Only then does a failure of the stream go unnoticed: in every
other case it is what the reading comes to, however many directives there were. The directives are
those of the delivered lines, up to the cap.
-/

namespace ProbeLoader

namespace Reading

/-- The directives that a cap leaves. -/
def upTo (cap : Option Nat) (ds : List Directive) : List Directive :=
  match cap with
  | none => ds
  | some n => ds.take n

/-- Whether lines go on after the one that brings their directives to the cap. -/
def Exceeds (cap : Option Nat) (ls : List (List UInt8)) : Prop :=
  ∃ n k, cap = some n ∧ capLine? (acceptedIn 1 ls) n = some k ∧ k < ls.length

end Reading

open Reading

/-- The lines that are complete before a stream ends or fails. -/
def Stream.delivered (s : Stream) : List (List UInt8) :=
  match s.failure with
  | none => linesOf s.bytes
  | some _ => (s.bytes.splitOn Stream.lineFeed).dropLast

namespace Reading

theorem items_eq_delivered (s : Stream) :
    s.items = s.delivered.map .line ++ (s.failure.map Stream.Item.failure).toList := by
  obtain ⟨bytes, failure⟩ := s
  cases failure with
  | none => exact (items_eq_map_line bytes).trans (List.append_nil _).symm
  | some message =>
    unfold Stream.items Stream.delivered
    rw [Text.segments_eq_splitOn]
    rfl

section

variable (source : ConfigSource)

/-- Without a cap all lines are read, and then the failure is met if there is one. -/
theorem ofItems_none (count number : Nat) (ls : List (List UInt8)) (failure : Option String) :
    ofItems source none count number
        (ls.map .line ++ (failure.map Stream.Item.failure).toList) =
      ⟨(rejectedIn number ls).map (skipped source), acceptedIn number ls, failure⟩ := by
  induction ls generalizing count number with
  | nil => cases failure <;> rfl
  | cons l ls ih =>
    rw [acceptedIn_cons, rejectedIn_cons]
    simp only [List.map_cons, List.cons_append, ofItems, isFull, Option.any_none,
      Bool.false_eq_true, if_false, ih]
    cases Line.parseBytes number l with
    | error e => rfl
    | ok o => cases o <;> rfl

/-- Under a cap of `n` the lines that fit are read. The next thing is a further line, which is
only noticed, or else the failure. -/
theorem reading_of_fits {s : Stream} {n : Nat} {used rest : List (List UInt8)}
    (hls : s.delivered = used ++ rest) (hfits : Fits n 1 used)
    (hrest : rest = [] ∨ (acceptedIn 1 used).length = n) :
    s.reading source (some n) =
      ⟨(rejectedIn 1 used).map (skipped source) ++ if rest = [] then [] else [capped source n],
        acceptedIn 1 used, if rest = [] then s.failure else none⟩ := by
  have hread := hfits.ofItems_append source 0
    (rest.map .line ++ (s.failure.map Stream.Item.failure).toList)
  rw [Nat.zero_add, Nat.zero_add] at hread
  unfold Stream.reading
  rw [items_eq_delivered, hls, List.map_append, List.append_assoc, hread]
  cases rest with
  | nil => cases s.failure <;> simp [ofItems]
  | cons l rest =>
    have hfull := hrest.resolve_left (List.cons_ne_nil l rest)
    simp [ofItems, isFull, hfull]

theorem exceeds_iff_of_fits {n : Nat} {used rest : List (List UInt8)} (hfits : Fits n 1 used)
    (hrest : rest = [] ∨ (acceptedIn 1 used).length = n) :
    Exceeds (some n) (used ++ rest) ↔ rest ≠ [] := by
  constructor
  · intro hexceeds
    obtain ⟨n', k, hn, hk, hlt⟩ := hexceeds
    obtain rfl := Option.some.inj hn
    intro hnil
    subst hnil
    rw [List.append_nil] at hk hlt
    have hfull : (acceptedIn 1 used).length = n := by
      apply Nat.le_antisymm hfits.length_le
      apply Nat.le_of_not_lt
      intro hless
      rw [capLine?_eq_none_iff.mpr hless] at hk
      exact nomatch hk
    have hline : capLine? (acceptedIn 1 (used ++ [])) n = some used.length :=
      hfits.capLine?_eq hfull
    rw [List.append_nil, hk] at hline
    obtain rfl := Option.some.inj hline
    exact Nat.lt_irrefl _ hlt
  · intro hne
    refine ⟨n, used.length, rfl, hfits.capLine?_eq (hrest.resolve_left hne), ?_⟩
    rw [List.length_append]
    exact Nat.lt_add_of_pos_right (List.length_pos_iff.mpr hne)

/-- What is read of a stream: the directives up to the cap, and the failure unless lines go on
after the cap was reached. -/
theorem reading_ending (s : Stream) (cap : Option Nat) :
    (s.reading source cap).directives = upTo cap (acceptedIn 1 s.delivered) ∧
      ((s.reading source cap).failure = none ↔ s.failure = none ∨ Exceeds cap s.delivered) ∧
      ∀ message, (s.reading source cap).failure = some message ↔
        s.failure = some message ∧ ¬ Exceeds cap s.delivered := by
  cases cap with
  | none =>
    have hread : s.reading source none =
        ⟨(rejectedIn 1 s.delivered).map (skipped source), acceptedIn 1 s.delivered, s.failure⟩ := by
      unfold Stream.reading
      rw [items_eq_delivered, ofItems_none]
    have hnever : ¬ Exceeds none s.delivered := by
      intro hexceeds
      obtain ⟨n, k, hn, _⟩ := hexceeds
      exact nomatch hn
    rw [hread]
    simp [upTo, hnever]
  | some n =>
    obtain ⟨used, rest, hls, hfits, hrest⟩ := exists_fits n 1 s.delivered
    have hread := reading_of_fits source hls hfits hrest
    have hexceeds := exceeds_iff_of_fits hfits hrest
    rw [hread, hls, hexceeds, upTo, acceptedIn_eq_take hfits hrest]
    by_cases hnil : rest = []
    · simp [hnil]
    · simp [hnil]

theorem directives_of_failure {s : Stream} {cap : Option Nat} {message : String}
    (hfailure : s.failure = some message) (hwithin : ¬ Exceeds cap s.delivered) :
    s.directives source cap = .error (.cannotRead source.shown message) := by
  have hread := ((reading_ending source s cap).2.2 message).mpr ⟨hfailure, hwithin⟩
  unfold Stream.directives result
  rw [hread]

theorem directives_of_no_failure {s : Stream} {cap : Option Nat}
    (hended : s.failure = none ∨ Exceeds cap s.delivered) :
    s.directives source cap =
      match upTo cap (acceptedIn 1 s.delivered) with
      | [] => .error (.noDirectives source.shown)
      | ds => .ok ds := by
  obtain ⟨hdirectives, hnone, _⟩ := reading_ending source s cap
  have hread := hnone.mpr hended
  unfold Stream.directives result
  cases hds : upTo cap (acceptedIn 1 s.delivered) with
  | nil => simp only [hread, hdirectives, hds]
  | cons d ds => simp only [hread, hdirectives, hds]

/-- Reading comes to directives if it is not stopped by a failure and there are some. -/
theorem directives_eq_ok_iff {s : Stream} {cap : Option Nat} {ds : List Directive} :
    s.directives source cap = .ok ds ↔
      (s.failure = none ∨ Exceeds cap s.delivered) ∧
        upTo cap (acceptedIn 1 s.delivered) = ds ∧ ds ≠ [] := by
  constructor
  · intro hok
    have hended : s.failure = none ∨ Exceeds cap s.delivered := by
      by_contra hnot
      rw [not_or] at hnot
      obtain ⟨message, hfailure⟩ := Option.ne_none_iff_exists'.mp hnot.1
      rw [directives_of_failure source hfailure hnot.2] at hok
      exact nomatch hok
    refine ⟨hended, ?_⟩
    rw [directives_of_no_failure source hended] at hok
    cases hds : upTo cap (acceptedIn 1 s.delivered) with
    | nil =>
      rw [hds] at hok
      exact nomatch hok
    | cons d rest =>
      rw [hds] at hok
      obtain rfl := Except.ok.inj hok
      exact ⟨rfl, List.cons_ne_nil d rest⟩
  · intro h
    obtain ⟨hended, rfl, hne⟩ := h
    rw [directives_of_no_failure source hended]
    obtain ⟨d, rest, hds⟩ := List.exists_cons_of_ne_nil hne
    rw [hds]

/-- Reading logs nothing but the lines it skips and that it stops at a cap. -/
theorem mem_log_ofItems (cap : Option Nat) (count number : Nat) (items : List Stream.Item)
    {r : Log.Record} (hr : r ∈ (ofItems source cap count number items).log) :
    (∃ e, r = skipped source e) ∨ ∃ n, r = capped source n := by
  induction items generalizing count number with
  | nil => exact absurd hr List.not_mem_nil
  | cons item items ih =>
    cases item with
    | failure message => exact absurd hr List.not_mem_nil
    | line bytes =>
      unfold ofItems at hr
      split at hr
      · exact Or.inr ⟨count, List.mem_singleton.mp hr⟩
      · split at hr
        · exact ih _ _ hr
        · exact ih _ _ hr
        · rename_i e _
          rcases List.mem_cons.mp hr with hfirst | hlater
          · exact Or.inl ⟨e, hfirst⟩
          · exact ih _ _ hlater

end

theorem acceptedIn_pairwise (number : Nat) (ls : List (List UInt8)) :
    (acceptedIn number ls).Pairwise fun d e => d.line < e.line := by
  induction ls generalizing number with
  | nil => exact .nil
  | cons l ls ih =>
    rw [acceptedIn_cons]
    cases hl : accepted? (Line.parseBytes number l) with
    | none => exact ih (number + 1)
    | some d =>
      apply List.pairwise_cons.mpr
      refine ⟨?_, ih (number + 1)⟩
      intro e he
      have hfirst := (fate_iff.mpr (accepted?_eq_some_iff.mp hl).symm).line_eq.1 d rfl
      obtain ⟨fate, hfate, haccepted⟩ := List.mem_filterMap.mp he
      obtain ⟨m, hle, _, hline, _⟩ := line_of_mem_fates hfate
      rw [hfirst, hline e (accepted?_eq_some_iff.mp haccepted)]
      exact hle

theorem pairwise_upTo {r : Directive → Directive → Prop} (cap : Option Nat) {ds : List Directive}
    (hds : ds.Pairwise r) : (upTo cap ds).Pairwise r := by
  cases cap with
  | none => exact hds
  | some n => exact hds.sublist (List.take_sublist n ds)

end Reading

end ProbeLoader
