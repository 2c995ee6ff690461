import ProbeLoader.Proofs.Config.Cap

/-!
# What follows the line that reaches a cap

A stream may go on in any way after the line that brings the directives to their cap. Reading asks
for one item more before it stops. A further line, or bytes before the end of the input, cost no
more than a warning and the end of the input costs nothing, but a failure to read on that comes
before the next line has ended loses the directives all the same.
-/

namespace ProbeLoader

namespace Reading

open ProbeLoader.Stream

/-- Bytes that end with a line feed are lines of their own, whatever follows them. -/
theorem items_append {before : List UInt8} (hend : before.getLast? = some lineFeed)
    (rest : List UInt8) (failure : Option String) :
    (Stream.mk (before ++ rest) failure).items =
      (linesOf before).map .line ++ (Stream.mk rest failure).items := by
  obtain ⟨init, rfl⟩ := List.getLast?_eq_some_iff.mp hend
  have hfeed : (lineFeed == lineFeed) = true := rfl
  have hparts := Text.segments_append_cons (· == lineFeed) hfeed init rest
  have hbefore : linesOf (init ++ [lineFeed]) = Text.segments (· == lineFeed) init := by
    have hsplit := Text.segments_append_cons (· == lineFeed) hfeed init []
    unfold linesOf
    rw [← Text.segments_eq_splitOn, hsplit]
    simp
  have hne : Text.segments (· == lineFeed) rest ≠ [] := Text.segments_ne_nil _ _
  rw [List.append_assoc, List.singleton_append, hbefore]
  unfold items
  dsimp only
  rw [hparts, List.dropLast_append_of_ne_nil hne, List.getLast?_append_of_ne_nil _ hne,
    List.map_append, List.append_assoc]

theorem items_of_mem {rest : List UInt8} (hmem : lineFeed ∈ rest) (failure : Option String) :
    ∃ l items, (Stream.mk rest failure).items = .line l :: items := by
  obtain ⟨before, after, rfl⟩ := List.append_of_mem hmem
  have hend : (before ++ [lineFeed]).getLast? = some lineFeed := List.getLast?_concat
  have hitems := items_append hend after failure
  have hne : linesOf (before ++ [lineFeed]) ≠ [] := by
    rw [ne_eq, linesOf_eq_nil_iff]
    exact List.append_ne_nil_of_right_ne_nil _ (List.cons_ne_nil _ _)
  obtain ⟨l, ls, hls⟩ := List.exists_cons_of_ne_nil hne
  rw [hls, List.append_assoc, List.singleton_append] at hitems
  exact ⟨l, _, hitems⟩

theorem items_of_not_mem {rest : List UInt8} (hmem : lineFeed ∉ rest) (failure : Option String) :
    (Stream.mk rest failure).items =
      match failure with
      | some message => [.failure message]
      | none => if rest = [] then [] else [.line rest] := by
  have hparts : Text.segments (· == lineFeed) rest = [rest] := by
    apply Text.segments_eq_singleton
    intro b hb
    exact beq_eq_false_iff_ne.mpr fun heq => hmem (heq ▸ hb)
  unfold items
  dsimp only
  rw [hparts]
  cases failure with
  | some message => rfl
  | none => simp

/-- What is read when the cap is reached already. -/
theorem ofItems_full (source : ConfigSource) (n number : Nat) (rest : List UInt8)
    (failure : Option String) :
    ofItems source (some n) n number (Stream.mk rest failure).items =
      if lineFeed ∈ rest then ⟨[capped source n], [], none⟩
      else
        match failure with
        | some message => ⟨[], [], some message⟩
        | none => ⟨if rest = [] then [] else [capped source n], [], none⟩ := by
  have hfull : isFull (some n) n = true := by simp [isFull]
  by_cases hmem : lineFeed ∈ rest
  · obtain ⟨l, items, hitems⟩ := items_of_mem hmem failure
    rw [hitems, if_pos hmem]
    simp [ofItems, hfull]
  · rw [items_of_not_mem hmem, if_neg hmem]
    cases failure with
    | some message => rfl
    | none => by_cases hrest : rest = [] <;> simp [hrest, ofItems, hfull]

/-- Lines of which the last one is accepted fit under a cap of as many directives. -/
theorem fits_of_last {number : Nat} {init : List (List UInt8)} {l : List UInt8} {d : Directive}
    (hl : Line.parseBytes (number + init.length) l = .ok (some d)) :
    Fits (acceptedIn number (init ++ [l])).length number (init ++ [l]) := by
  induction init generalizing number with
  | nil =>
    rw [acceptedIn_concat hl]
    exact .accepted hl .nil
  | cons m init ih =>
    have hnext : Line.parseBytes (number + 1 + init.length) l = .ok (some d) := by
      rwa [Nat.add_assoc, Nat.add_comm 1]
    have hrest := ih hnext
    have hlength : (acceptedIn (number + 1) (init ++ [l])).length =
        (acceptedIn (number + 1) init).length + 1 := by
      rw [acceptedIn_concat hnext, List.length_append, List.length_singleton]
    rw [List.cons_append, acceptedIn_cons]
    cases hm : accepted? (Line.parseBytes number m) with
    | some d' => exact .accepted (accepted?_eq_some_iff.mp hm) hrest
    | none =>
      rw [Option.toList_none, List.nil_append]
      rw [hlength] at hrest ⊢
      exact .passed hm hrest

/-- If the last directive is that of the last line, the lines fit under a cap of as many. -/
theorem fits_of_line_eq {ls : List (List UInt8)} {last : Directive}
    (hlast : (acceptedIn 1 ls).getLast? = some last) (hline : last.line = ls.length) :
    Fits (acceptedIn 1 ls).length 1 ls := by
  rcases List.eq_nil_or_concat' ls with rfl | ⟨init, l, rfl⟩
  · exact nomatch hlast
  · cases hl : accepted? (Line.parseBytes (1 + init.length) l) with
    | some d => exact fits_of_last (accepted?_eq_some_iff.mp hl)
    | none =>
      -- Then the last directive comes of an earlier line.
      have hmem : last ∈ acceptedIn 1 init := by
        have hnil : acceptedIn (1 + init.length) [l] = [] := by
          rw [acceptedIn_cons, hl]
          rfl
        rw [acceptedIn_append, hnil, List.append_nil] at hlast
        exact List.mem_of_getLast? hlast
      have hlt := line_of_mem_acceptedIn hmem
      rw [List.length_append, List.length_singleton] at hline
      omega

/-- What a stream goes on with after the line that reaches the cap decides whether it is said that
the rest is ignored. It also decides the result: if reading on fails before another line has ended,
that failure is the result, and the directives otherwise. -/
theorem directives_after_cap (source : ConfigSource) {before : List UInt8} {n : Nat}
    {last : Directive} (hend : before.getLast? = some lineFeed)
    (hcount : (uncapped before source).directives.length = n)
    (hlast : (uncapped before source).directives.getLast? = some last)
    (hline : last.line = (linesOf before).length) (rest : List UInt8) (failure : Option String) :
    (Stream.mk (before ++ rest) failure).directives source (some n) =
        (match failure with
        | some message =>
          if lineFeed ∈ rest then .ok (uncapped before source).directives
          else .error (.cannotRead source.shown message)
        | none => .ok (uncapped before source).directives) ∧
      ((Stream.mk (before ++ rest) failure).reading source (some n)).log =
        (uncapped before source).log ++
          if lineFeed ∈ rest ∨ (rest ≠ [] ∧ failure = none) then [capped source n] else [] := by
  rw [uncapped_eq] at hcount hlast ⊢
  dsimp only at hcount hlast ⊢
  subst hcount
  have hfits := fits_of_line_eq hlast hline
  have hread := hfits.ofItems_append source 0 (Stream.mk rest failure).items
  rw [Nat.zero_add, ofItems_full] at hread
  have hne : acceptedIn 1 (linesOf before) ≠ [] := by
    intro hnil
    rw [hnil] at hlast
    exact nomatch hlast
  unfold Stream.directives Stream.reading
  rw [items_append hend, hread]
  obtain ⟨d, ds, hds⟩ := List.exists_cons_of_ne_nil hne
  by_cases hmem : lineFeed ∈ rest
  · cases failure <;> simp [hmem, result, hds]
  · cases failure with
    | some message => simp [hmem, result]
    | none => by_cases hrest : rest = [] <;> simp [hmem, hrest, result, hds]

/-- A comment that has ended is enough to keep the directive through the failure behind it. -/
theorem directives_after_cap_comment :
    let before := Utf8.encode "/p/a a kprobe a\n"
    let d : Directive := ⟨1, .ofString "/p/a", "a", .kprobe, "a"⟩
    before.getLast? = some lineFeed ∧ (uncapped before .stdin).directives.length = 1 ∧
      (uncapped before .stdin).directives.getLast? = some d ∧
      d.line = (linesOf before).length ∧
      (Stream.mk (before ++ [0x23, lineFeed]) (some "Input/output error")).directives .stdin
        (some 1) = .ok (uncapped before .stdin).directives := by
  intro before d
  have hend : before.getLast? = some lineFeed := by decide +kernel
  have hcount : (uncapped before .stdin).directives.length = 1 := by decide +kernel
  have hlast : (uncapped before .stdin).directives.getLast? = some d := by decide +kernel
  have hline : d.line = (linesOf before).length := by decide +kernel
  refine ⟨hend, hcount, hlast, hline, ?_⟩
  exact (directives_after_cap .stdin hend hcount hlast hline [0x23, lineFeed] _).1

/-- It is not so that nothing after the line that reaches the cap is read. -/
theorem directives_lost_after_cap :
    let before := Utf8.encode "/p/a a kprobe a\n"
    let d : Directive := ⟨1, .ofString "/p/a", "a", .kprobe, "a"⟩
    before.getLast? = some lineFeed ∧ (uncapped before .stdin).directives = [d] ∧
      d.line = (linesOf before).length ∧
      (Stream.mk before (some "Input/output error")).directives .stdin (some 1) ≠ .ok [d] := by
  decide +kernel

end Reading

end ProbeLoader
