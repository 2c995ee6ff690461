import ProbeLoader.Proofs.CommandLine.Stepping
import ProbeLoader.Proofs.Text.Utf8

/-!
# Options with values

An option that takes a value is given it behind `=` or as the next argument, and either way the
value is stored at once as far as the rest of the arguments can tell. A number in decimal is such a
value.
-/

namespace ProbeLoader.Arguments

open Text

/-- An option by its full name. -/
def Name.option (n : Name) : Raw := Utf8.encode ("--" ++ n.spelling)

/-- An option with its value, behind `=` or as the next argument. -/
inductive Supplies (n : Name) (value : Raw) : List Raw → Prop where
  | attached : Supplies n value [n.option ++ equals :: value]
  | separate : Supplies n value [n.option, value]

theorem Name.option_eq (n : Name) : n.option = dash :: dash :: Utf8.encode n.spelling := by
  cases n <;> decide

theorem Name.equals_not_mem_spelling (n : Name) : equals ∉ Utf8.encode n.spelling := by
  cases n <;> decide

theorem Name.ofSpelling?_spelling (n : Name) : ofSpelling? (Utf8.encode n.spelling) = some n := by
  cases n <;> decide

section

variable {s : State} {g : Given} {arg value : Raw} {args given : List Raw} {slot : Slot}
  {n : Name} {attached : Option Raw} {o : Options}

theorem isLong_iff :
    IsLong arg n attached ↔ arg = n.option ++ attached.elim [] (equals :: ·) := by
  constructor
  · intro hlong
    cases hlong with
    | intro _ hsplit hname =>
      obtain ⟨-, rfl⟩ := splitLong_eq_iff.mp hsplit
      obtain rfl := Name.spelling_of_ofSpelling? hname
      rw [n.option_eq]
      rfl
  · rintro rfl
    have hne : Utf8.encode n.spelling ≠ [] := by
      cases n <;> decide
    rw [n.option_eq]
    exact .intro (List.append_ne_nil_of_left_ne_nil hne _)
      (splitLong_eq_iff.mpr ⟨n.equals_not_mem_spelling, rfl⟩) n.ofSpelling?_spelling

theorem isLong_attached (n : Name) (value : Raw) :
    IsLong (n.option ++ equals :: value) n (some value) :=
  isLong_iff.mpr rfl

theorem isLong_separate (n : Name) : IsLong n.option n none :=
  isLong_iff.mpr (List.append_nil _).symm

/-- The option and its value leave a state that is settled by storing the value. -/
theorem Supplies.exists_reached {t : State} (hgiven : Supplies n value given)
    (htakes : Takes n slot) (hvalue : IsPlain value) (hliteral : t.literal = false)
    (ht : settle s = .ok t) (hstore : store t.given slot value = .ok g) :
    ∃ u, Reached s given u ∧ settle u = .ok { t with given := g } := by
  have hnone := pending_of_settle ht
  cases hgiven with
  | attached =>
    have hacts : Acts t _ _ := .stored hliteral (isLong_attached n value) htakes hstore
    exact ⟨_, .single (.acted ht hacts), settle_of_none hnone⟩
  | separate =>
    have hacts : Acts t _ _ := .waiting hliteral (isLong_separate n) htakes
    refine ⟨_, .step (.acted ht hacts) (.single (.value hliteral hvalue rfl)), ?_⟩
    rw [hnone]
    exact settle_of_store rfl hstore

/-- An option that waits gets the argument behind it as its value. -/
theorem exists_store_of_waiting (hliteral : s.literal = false)
    (hpending : s.pending = some ⟨slot, none⟩) (hvalue : IsPlain value)
    (ho : readAll s (value :: args) = .ok o) : ∃ g, store s.given slot value = .ok g ∧
      readAll { s with given := g, pending := none } args = .ok o := by
  obtain ⟨u, hu, ho⟩ := readAll_cons_eq_ok_iff.mp ho
  have hu := step_eq_ok_iff.mpr hu
  rw [step_of_plain (Or.inr hvalue), plain_of_waiting hliteral hpending] at hu
  obtain rfl := Except.ok.inj hu
  -- The value is pending now, and what follows is read as if it were settled.
  obtain ⟨t, ht, ho⟩ := (readAll_iff_settled (by simp)).mp ho
  rcases settle_cases ht with ⟨hnone, -⟩ | ⟨slot, value, g, hpending, hstore, rfl⟩
  · exact nomatch hnone
  · cases hpending
    exact ⟨g, hstore, ho⟩

/-- At an option with its value, reading goes on exactly if the value can be stored. -/
theorem Supplies.readAll_eq_ok_iff (hgiven : Supplies n value given) (htakes : Takes n slot)
    (hvalue : IsPlain value) (hliteral : s.literal = false) :
    readAll s (given ++ args) = .ok o ↔ ∃ t g, settle s = .ok t ∧
      store t.given slot value = .ok g ∧ readAll { t with given := g } args = .ok o := by
  constructor
  · intro ho
    cases hgiven with
    | attached =>
      obtain ⟨u, hu, ho⟩ := readAll_cons_eq_ok_iff.mp ho
      have hu := step_eq_ok_iff.mpr hu
      rw [step_of_takes hliteral (isLong_attached n value) htakes] at hu
      obtain ⟨t, g, ht, hstore, rfl⟩ := valueOption_some_eq_ok_iff.mp hu
      exact ⟨t, g, ht, hstore, ho⟩
    | separate =>
      obtain ⟨u, hu, ho⟩ := readAll_cons_eq_ok_iff.mp ho
      have hu := step_eq_ok_iff.mpr hu
      rw [step_of_takes hliteral (isLong_separate n) htakes] at hu
      obtain ⟨t, ht, rfl⟩ := valueOption_none_eq_ok_iff.mp hu
      have hfalse : t.literal = false := (literal_of_settle ht).trans hliteral
      obtain ⟨g, hstore, ho⟩ :=
        exists_store_of_waiting (s := { t with pending := some ⟨slot, none⟩ }) hfalse rfl hvalue ho
      rw [← pending_of_settle ht] at ho
      exact ⟨t, g, ht, hstore, ho⟩
  · rintro ⟨t, g, ht, hstore, ho⟩
    have hfalse := (literal_of_settle ht).trans hliteral
    obtain ⟨u, hu, hsettled⟩ := hgiven.exists_reached htakes hvalue hfalse ht hstore
    have hwaiting (slot : Slot) : u.pending ≠ some ⟨slot, none⟩ := fun hpending =>
      settle_ne_ok_of_waiting hpending hsettled
    exact readAll_append_eq_ok_iff.mpr ⟨u, hu, (readAll_iff_settled hwaiting).mpr ⟨_, hsettled, ho⟩⟩

end

section

variable {n : Nat} {text : String}

theorem digits?_of_isDecimal (htext : IsDecimal n text) : digits? text.toList = some n := by
  unfold digits?
  rw [if_neg, htext.ofDigits_eq]
  simpa [htext.toList_ne_nil] using fun c hc => htext.isDigit_of_mem hc

/-- A number below the limit is read back from its digits. -/
theorem number?_of_isDecimal (htext : IsDecimal n text) (hn : n < numberLimit) :
    number? text = some n := by
  have hdigits : number? text = (digits? text.toList).filter (· < numberLimit) := by
    unfold number?
    dsimp only
    split
    · rename_i cs hplus
      exact absurd (hplus ▸ List.mem_cons_self) (htext.not_mem (c := '+') rfl)
    · rfl
  rw [hdigits, digits?_of_isDecimal htext]
  simp [hn]

theorem isPlain_of_isDecimal (htext : IsDecimal n text) : IsPlain (Utf8.encode text) := by
  have hdash : dash ∉ Utf8.encode text := fun hmem =>
    htext.not_mem (c := '-') rfl (Utf8.mem_of_mem_encode (by decide) hmem)
  cases hbytes : Utf8.encode text with
  | nil => exact .empty
  | cons b rest =>
    rw [hbytes] at hdash
    exact .other (List.ne_of_not_mem_cons hdash).symm

end

end ProbeLoader.Arguments
