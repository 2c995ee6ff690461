import ProbeLoader.Proofs.Config.Lines

/-!
# How lines end

A line may end with a carriage return before its line feed, with several, or with none, and the
last line need not end at all: the carriage returns are separators at the end of the line, which
say nothing, and a line feed at the end of the input begins no other line. So a configuration is
read alike in either convention, up to the same cap and into the same failure.
-/

namespace ProbeLoader

namespace Text

variable {α : Type}

/-- An element that is no separator goes on with the last segment. -/
theorem segments_concat (sep : α → Bool) {b : α} (hb : sep b = false) (l : List α) :
    ∃ init last, segments sep l = init ++ [last] ∧
      segments sep (l ++ [b]) = init ++ [last ++ [b]] := by
  induction l with
  | nil => exact ⟨[], [], rfl, by simp [segments, hb, consFirst]⟩
  | cons a l ih =>
    obtain ⟨init, last, hl, hlb⟩ := ih
    rw [List.cons_append, segments, segments, hl, hlb]
    cases sep a with
    | true => exact ⟨[] :: init, last, rfl, rfl⟩
    | false =>
      cases init with
      | nil => exact ⟨[], a :: last, rfl, rfl⟩
      | cons first init => exact ⟨(a :: first) :: init, last, rfl, rfl⟩

end Text

open ProbeLoader.Stream

/-- The byte that may stand before the line feed of a line. -/
def Stream.carriageReturn : UInt8 := 0x0D

namespace Line

/-- Neither what the bytes of a line say nor whether they are text depends on a carriage return
behind them. -/
theorem parseBytes_concat (number : Nat) (bytes : List UInt8) :
    parseBytes number (bytes ++ [carriageReturn]) = parseBytes number bytes := by
  unfold parseBytes
  cases hbytes : Utf8.decode? bytes with
  | some s =>
    have hmore : bytes ++ [carriageReturn] = Utf8.encode (s ++ "\r") := by
      rw [Utf8.decode?_eq_some_iff.mp hbytes, Utf8.encode_append]
      rfl
    have hs : (s ++ "\r").toList = s.toList ++ ['\r'] := String.toList_append
    have hending : IsEnding ['\r'] := by
      intro c hc
      exact Or.inr (List.mem_singleton.mp hc)
    rw [hmore, Utf8.decode?_encode]
    exact parse_of_ending number hs hending
  | none =>
    have hmore : Utf8.decode? (bytes ++ [carriageReturn]) = none := by
      apply Utf8.decode?_eq_none_iff.mpr
      intro t ht
      obtain ⟨s, _, hs⟩ := Utf8.exists_of_encode_eq_concat (c := '\r') (by decide) ht.symm
      exact Utf8.decode?_eq_none_iff.mp hbytes s hs
    rw [hmore]

end Line

namespace Reading

/-- Bytes with a carriage return before every line feed, also where one stands already. -/
def withReturns (bytes : List UInt8) : List UInt8 :=
  bytes.flatMap fun b => if b = lineFeed then [carriageReturn, lineFeed] else [b]

/-- Items that reading cannot tell apart: the same failure, or lines with the same fate. -/
inductive ReadAlike : Item → Item → Prop where
  | line {l l' : List UInt8} : (∀ number, Line.parseBytes number l = Line.parseBytes number l') →
      ReadAlike (.line l) (.line l')
  | failure (message : String) : ReadAlike (.failure message) (.failure message)

theorem ReadAlike.refl (item : Item) : ReadAlike item item := by
  cases item with
  | line l => exact .line fun _ => rfl
  | failure message => exact .failure message

theorem ReadAlike.concat (l : List UInt8) :
    ReadAlike (.line (l ++ [carriageReturn])) (.line l) :=
  .line fun number => Line.parseBytes_concat number l

theorem ofItems_eq_of_readAlike {items items' : List Item}
    (halike : List.Forall₂ ReadAlike items items') (source : ConfigSource) (cap : Option Nat)
    (count number : Nat) :
    ofItems source cap count number items = ofItems source cap count number items' := by
  induction halike generalizing count number with
  | nil => rfl
  | cons hitem _ ih =>
    cases hitem with
    | failure message => rfl
    | line hline => simp only [ofItems, hline, ih]

/-- All lines but the last one, which no line feed has ended, get a carriage return. -/
theorem segments_withReturns (bytes : List UInt8) :
    ∃ init last, Text.segments (· == lineFeed) bytes = init ++ [last] ∧
      Text.segments (· == lineFeed) (withReturns bytes) =
        init.map (· ++ [carriageReturn]) ++ [last] := by
  induction bytes with
  | nil => exact ⟨[], [], rfl, rfl⟩
  | cons b bytes ih =>
    obtain ⟨init, last, hbytes, hreturns⟩ := ih
    have hcons : withReturns (b :: bytes) =
        (if b = lineFeed then [carriageReturn, lineFeed] else [b]) ++ withReturns bytes :=
      List.flatMap_cons
    rw [hcons]
    by_cases hb : b = lineFeed
    · subst hb
      refine ⟨[] :: init, last, ?_, ?_⟩
      · rw [Text.segments, hbytes]
        rfl
      · -- The carriage return is the first segment, before the line feed.
        have hfirst : Text.segments (· == lineFeed) [carriageReturn] = [[carriageReturn]] := rfl
        have happend := Text.segments_append_cons (· == lineFeed) (b := lineFeed) rfl
          [carriageReturn] (withReturns bytes)
        rw [hfirst, hreturns] at happend
        exact happend
    · have hfeed : (b == lineFeed) = false := beq_eq_false_iff_ne.mpr hb
      rw [if_neg hb, List.singleton_append, Text.segments, Text.segments, hbytes, hreturns, hfeed]
      cases init with
      | nil => exact ⟨[], b :: last, rfl, rfl⟩
      | cons first init => exact ⟨(b :: first) :: init, last, rfl, rfl⟩

theorem items_withReturns (bytes : List UInt8) (failure : Option String) :
    List.Forall₂ ReadAlike (Stream.mk (withReturns bytes) failure).items
      (Stream.mk bytes failure).items := by
  obtain ⟨init, last, hbytes, hreturns⟩ := segments_withReturns bytes
  have hinit : List.Forall₂ ReadAlike ((init.map (· ++ [carriageReturn])).map .line)
      (init.map .line) := by
    rw [List.map_map, List.forall₂_map_left_iff, List.forall₂_map_right_iff]
    exact List.forall₂_same.mpr fun l _ => ReadAlike.concat l
  unfold items
  dsimp only
  rw [hbytes, hreturns, List.dropLast_concat, List.dropLast_concat, List.getLast?_concat,
    List.getLast?_concat]
  exact List.rel_append hinit (List.forall₂_same.mpr fun item _ => ReadAlike.refl item)

/-- A line feed behind the last line changes nothing if that line was not ended before. -/
theorem items_concat {bytes : List UInt8} (hne : bytes ≠ [])
    (hopen : bytes.getLast? ≠ some lineFeed) :
    (Stream.mk (bytes ++ [lineFeed]) none).items = (Stream.mk bytes none).items := by
  obtain ⟨front, b, rfl⟩ := (List.eq_nil_or_concat' bytes).resolve_left hne
  have hb : (b == lineFeed) = false := by
    apply beq_eq_false_iff_ne.mpr
    rintro rfl
    exact hopen List.getLast?_concat
  obtain ⟨init, last, _, hparts⟩ := Text.segments_concat (· == lineFeed) hb front
  have hended := Text.segments_append_cons (· == lineFeed) (b := lineFeed) rfl (front ++ [b]) []
  unfold items
  dsimp only
  rw [hended, hparts]
  simp

end Reading

open Reading

/-- What the ends of lines have to do with how a configuration is read. -/
structure Reading.EndingsIgnored (bytes : List UInt8) (source : ConfigSource) (cap : Option Nat) :
    Prop where
  /-- Carriage returns before all line feeds change neither the result nor the log, also if the
  input ends in a failure. -/
  returns : ∀ failure,
    (Stream.mk (withReturns bytes) failure).directives source cap =
        (Stream.mk bytes failure).directives source cap ∧
      ((Stream.mk (withReturns bytes) failure).reading source cap).log =
        ((Stream.mk bytes failure).reading source cap).log
  /-- The last line may be ended or not. -/
  last : bytes ≠ [] → bytes.getLast? ≠ some lineFeed →
    (Stream.mk (bytes ++ [lineFeed]) none).directives source cap =
        (Stream.mk bytes none).directives source cap ∧
      ((Stream.mk (bytes ++ [lineFeed]) none).reading source cap).log =
        ((Stream.mk bytes none).reading source cap).log

/-- How the lines of a configuration end has no influence on what is read of it. -/
theorem Reading.reading_endingsIgnored (bytes : List UInt8) (source : ConfigSource)
    (cap : Option Nat) : EndingsIgnored bytes source cap := by
  constructor
  · intro failure
    have hread : (Stream.mk (withReturns bytes) failure).reading source cap =
        (Stream.mk bytes failure).reading source cap :=
      ofItems_eq_of_readAlike (items_withReturns bytes failure) source cap 0 1
    unfold Stream.directives
    rw [hread]
    exact ⟨rfl, rfl⟩
  · intro hne hopen
    have hread : (Stream.mk (bytes ++ [lineFeed]) none).reading source cap =
        (Stream.mk bytes none).reading source cap := by
      unfold Stream.reading
      rw [items_concat hne hopen]
    unfold Stream.directives
    rw [hread]
    exact ⟨rfl, rfl⟩

end ProbeLoader
