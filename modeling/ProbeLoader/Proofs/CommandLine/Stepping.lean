import ProbeLoader.CommandLine.Arguments
import Mathlib.Data.List.TakeWhile

/-!
# What one argument does

An argument settles the one that is pending before it acts, unless it is the value that an option
waits for or the lone `--` behind which all arguments are unnamed. So reading may as well go on from
the state in which the pending argument is settled.
-/

namespace ProbeLoader.Arguments

/-- An argument that is no option wherever options are understood. -/
inductive IsPlain : Raw → Prop where
  | empty : IsPlain []
  | dash : IsPlain [dash]
  | other {b : UInt8} {rest : Raw} : b ≠ dash → IsPlain (b :: rest)

/-- An option by its full name, with what stands behind `=`. -/
inductive IsLong : Raw → Name → Option Raw → Prop where
  | intro {rest name : Raw} {n : Name} {attached : Option Raw} : rest ≠ [] →
      splitLong rest = (name, attached) → Name.ofSpelling? name = some n →
      IsLong (dash :: dash :: rest) n attached

/-- The argument that is found by how many without a name came before it. -/
def unnamedSlot? : Nat → Option Slot
  | 0 => some .object
  | 1 => some .config
  | _ => none

/-- The options that take a value. -/
inductive Takes : Name → Slot → Prop where
  | logLevel : Takes .logLevel .logLevel
  | cap : Takes .cap .cap

/-- What an argument does to a state in which nothing is pending. -/
inductive Acts (s : State) (arg : Raw) : State → Prop where
  | unnamed {slot : Slot} : s.literal = true ∨ IsPlain arg → unnamedSlot? s.unnamed = some slot →
      Acts s arg { s with pending := some ⟨slot, some arg⟩, unnamed := s.unnamed + 1 }
  | waiting {n : Name} {slot : Slot} : s.literal = false → IsLong arg n none → Takes n slot →
      Acts s arg { s with pending := some ⟨slot, none⟩ }
  | stored {n : Name} {slot : Slot} {value : Raw} {g : Given} : s.literal = false →
      IsLong arg n (some value) → Takes n slot → store s.given slot value = .ok g →
      Acts s arg { s with given := g }
  | unchecked : s.literal = false → IsLong arg .noPreflight none → s.given.noPreflight = false →
      Acts s arg { s with given := { s.given with noPreflight := true } }

/-- What an argument does to a state. -/
inductive Stepped (s : State) (arg : Raw) : State → Prop where
  | literal : s.literal = false → arg = [dash, dash] → Stepped s arg { s with literal := true }
  | value {slot : Slot} : s.literal = false → IsPlain arg → s.pending = some ⟨slot, none⟩ →
      Stepped s arg { s with pending := some ⟨slot, some arg⟩ }
  | acted {t u : State} : settle s = .ok t → Acts t arg u → Stepped s arg u

section

variable {s t u : State} {arg : Raw} {args : List Raw} {o : Options}

theorem splitLong_eq_iff {rest name : Raw} {attached : Option Raw} :
    splitLong rest = (name, attached) ↔
      equals ∉ name ∧ rest = name ++ attached.elim [] (equals :: ·) := by
  constructor
  · intro hsplit
    have hcut := List.takeWhile_append_dropWhile (p := (· != equals)) (l := rest)
    have htaken : equals ∉ rest.takeWhile (· != equals) := by
      intro hmem
      have hne := List.mem_takeWhile_imp hmem
      exact absurd hne (by decide)
    unfold splitLong at hsplit
    cases hdrop : rest.dropWhile (· != equals) with
    | nil =>
      rw [hdrop] at hsplit hcut
      rw [List.append_nil] at hcut
      rw [hcut] at htaken
      obtain ⟨rfl, rfl⟩ := Prod.mk.inj hsplit
      exact ⟨htaken, (List.append_nil _).symm⟩
    | cons b value =>
      have hhead := List.head?_dropWhile_not (· != equals) rest
      rw [hdrop] at hsplit hcut hhead
      obtain rfl : b = equals := by simpa using hhead
      obtain ⟨rfl, rfl⟩ := Prod.mk.inj hsplit
      exact ⟨htaken, hcut.symm⟩
  · rintro ⟨hname, rfl⟩
    have hkept : ∀ b ∈ name, (b != equals) = true := by
      intro b hb
      exact bne_iff_ne.mpr (ne_of_mem_of_not_mem hb hname)
    unfold splitLong
    rw [List.dropWhile_append_of_pos hkept, List.takeWhile_append_of_pos hkept]
    cases attached <;> simp

theorem Name.spelling_of_ofSpelling? {raw : Raw} {n : Name} (hname : ofSpelling? raw = some n) :
    Utf8.encode n.spelling = raw := by
  unfold ofSpelling? at hname
  have hfound := List.find?_some hname
  exact eq_of_beq hfound

theorem settle_cases (ht : settle s = .ok t) : (s.pending = none ∧ t = s) ∨
    ∃ slot value g, s.pending = some ⟨slot, some value⟩ ∧ store s.given slot value = .ok g ∧
      t = { s with given := g, pending := none } := by
  unfold settle at ht
  split at ht
  · rename_i hpending
    exact Or.inl ⟨hpending, (Except.ok.inj ht).symm⟩
  · exact nomatch ht
  · rename_i slot value hpending
    split at ht
    · exact nomatch ht
    · rename_i g hstore
      exact Or.inr ⟨slot, value, g, hpending, hstore, (Except.ok.inj ht).symm⟩

theorem settle_of_none (hpending : s.pending = none) : settle s = .ok s := by
  unfold settle
  rw [hpending]

theorem settle_of_store {slot : Slot} {value : Raw} {g : Given}
    (hpending : s.pending = some ⟨slot, some value⟩) (hstore : store s.given slot value = .ok g) :
    settle s = .ok { s with given := g, pending := none } := by
  unfold settle
  rw [hpending]
  dsimp only
  rw [hstore]

theorem pending_of_settle (ht : settle s = .ok t) : t.pending = none := by
  rcases settle_cases ht with ⟨hpending, rfl⟩ | ⟨_, _, _, _, _, rfl⟩
  · exact hpending
  · rfl

theorem literal_of_settle (ht : settle s = .ok t) : t.literal = s.literal := by
  rcases settle_cases ht with ⟨_, rfl⟩ | ⟨_, _, _, _, _, rfl⟩ <;> rfl

theorem unnamed_of_settle (ht : settle s = .ok t) : t.unnamed = s.unnamed := by
  rcases settle_cases ht with ⟨_, rfl⟩ | ⟨_, _, _, _, _, rfl⟩ <;> rfl

theorem settle_literal (ht : settle s = .ok t) :
    settle { s with literal := true } = .ok { t with literal := true } := by
  rcases settle_cases ht with ⟨hpending, rfl⟩ | ⟨slot, value, g, hpending, hstore, rfl⟩
  · exact settle_of_none hpending
  · exact settle_of_store hpending hstore

theorem exists_settle_of_literal (ht : settle { s with literal := true } = .ok t) :
    ∃ t', settle s = .ok t' ∧ t = { t' with literal := true } := by
  rcases settle_cases ht with ⟨hpending, rfl⟩ | ⟨slot, value, g, hpending, hstore, rfl⟩
  · exact ⟨s, settle_of_none hpending, rfl⟩
  · exact ⟨_, settle_of_store hpending hstore, rfl⟩

theorem plain_of_waiting {slot : Slot} (hliteral : s.literal = false)
    (hpending : s.pending = some ⟨slot, none⟩) :
    plain s arg = .ok { s with pending := some ⟨slot, some arg⟩ } := by
  unfold plain
  rw [hliteral, hpending]

theorem plain_of_settle (ht : settle s = .ok t) : plain s arg =
    match unnamedSlot? t.unnamed with
    | none => mistake .unknownArgument
    | some slot => .ok { t with pending := some ⟨slot, some arg⟩, unnamed := t.unnamed + 1 } := by
  rw [unnamed_of_settle ht]
  unfold plain
  split
  · rename_i slot _ hpending
    unfold settle at ht
    rw [hpending] at ht
    exact nomatch ht
  · rw [ht]
    dsimp only
    rw [unnamed_of_settle ht]
    rfl

theorem step_of_plain (harg : s.literal = true ∨ IsPlain arg) : step s arg = plain s arg := by
  unfold step
  rcases harg with hliteral | hplain
  · rw [if_pos hliteral]
  · split
    · rfl
    · cases hplain with
      | empty => rfl
      | dash => rfl
      | other hb => exact if_pos hb

theorem step_of_long {rest name : Raw} {attached : Option Raw} (hliteral : s.literal = false)
    (hrest : rest ≠ []) (hsplit : splitLong rest = (name, attached)) :
    step s (dash :: dash :: rest) = long s name attached := by
  have hempty : rest.isEmpty = false := by simpa using hrest
  unfold step
  simp [hliteral, hempty, hsplit]

theorem step_of_lone (hliteral : s.literal = false) :
    step s [dash, dash] = .ok { s with literal := true } := by
  unfold step
  simp [hliteral]

theorem stop_ne_ok (what : Stop) : stop s what ≠ .ok u := by
  unfold stop
  cases settle s <;> exact nofun

theorem short_ne_ok (letter : UInt8) : short s letter ≠ .ok u := by
  unfold short
  split
  · exact stop_ne_ok _
  · split
    · exact stop_ne_ok _
    · exact nofun

theorem valueOption_none_eq_ok_iff {slot : Slot} : valueOption s slot none = .ok u ↔
    ∃ t, settle s = .ok t ∧ u = { t with pending := some ⟨slot, none⟩ } := by
  unfold valueOption
  cases settle s <;> simp [eq_comm]

theorem valueOption_some_eq_ok_iff {slot : Slot} {value : Raw} :
    valueOption s slot (some value) = .ok u ↔ ∃ t g, settle s = .ok t ∧
      store t.given slot value = .ok g ∧ u = { t with given := g } := by
  unfold valueOption
  cases settle s with
  | error e => simp
  | ok t => cases hstore : store t.given slot value <;> simp [hstore, eq_comm]

theorem noPreflight_eq_ok_iff : noPreflight s = .ok u ↔ ∃ t, settle s = .ok t ∧
    t.given.noPreflight = false ∧ u = { t with given := { t.given with noPreflight := true } } := by
  unfold noPreflight
  cases settle s with
  | error e => simp
  | ok t =>
    dsimp only
    split
    · rename_i hgiven
      simp [hgiven, mistake]
    · rename_i hgiven
      rw [Bool.not_eq_true] at hgiven
      constructor
      · intro hu
        exact ⟨t, rfl, hgiven, (Except.ok.inj hu).symm⟩
      · rintro ⟨_, ht, -, rfl⟩
        rw [Except.ok.inj ht]

theorem stepped_of_valueOption {n : Name} {slot : Slot} {attached : Option Raw}
    (hliteral : s.literal = false) (hlong : IsLong arg n attached) (htakes : Takes n slot)
    (hu : valueOption s slot attached = .ok u) : Stepped s arg u := by
  cases attached with
  | none =>
    obtain ⟨t, ht, rfl⟩ := valueOption_none_eq_ok_iff.mp hu
    exact .acted ht (.waiting ((literal_of_settle ht).trans hliteral) hlong htakes)
  | some value =>
    obtain ⟨t, g, ht, hstore, rfl⟩ := valueOption_some_eq_ok_iff.mp hu
    exact .acted ht (.stored ((literal_of_settle ht).trans hliteral) hlong htakes hstore)

theorem stepped_of_noPreflight (hliteral : s.literal = false)
    (hlong : IsLong arg .noPreflight none) (hu : noPreflight s = .ok u) : Stepped s arg u := by
  obtain ⟨t, ht, hgiven, rfl⟩ := noPreflight_eq_ok_iff.mp hu
  exact .acted ht (.unchecked ((literal_of_settle ht).trans hliteral) hlong hgiven)

theorem stepped_of_long {rest name : Raw} {attached : Option Raw} (hliteral : s.literal = false)
    (hrest : rest ≠ []) (hsplit : splitLong rest = (name, attached))
    (hu : long s name attached = .ok u) : Stepped s (dash :: dash :: rest) u := by
  unfold long at hu
  split at hu
  · exact nomatch hu
  · rename_i hname
    exact stepped_of_valueOption hliteral (.intro hrest hsplit hname) .logLevel hu
  · rename_i hname
    exact stepped_of_valueOption hliteral (.intro hrest hsplit hname) .cap hu
  · rename_i hname
    cases attached with
    | some value => exact nomatch hu
    | none => exact stepped_of_noPreflight hliteral (.intro hrest hsplit hname) hu
  · split at hu
    · exact nomatch hu
    · exact absurd hu (stop_ne_ok _)
  · split at hu
    · exact nomatch hu
    · exact absurd hu (stop_ne_ok _)

theorem stepped_of_plain (harg : s.literal = true ∨ IsPlain arg) (hu : plain s arg = .ok u) :
    Stepped s arg u := by
  cases ht : settle s with
  | ok t =>
    rw [plain_of_settle ht] at hu
    split at hu
    · exact nomatch hu
    · rename_i slot hslot
      obtain rfl := Except.ok.inj hu
      rw [← literal_of_settle ht] at harg
      exact .acted ht (.unnamed harg hslot)
  | error e =>
    unfold plain at hu
    split at hu
    · rename_i slot hliteral hpending
      obtain rfl := Except.ok.inj hu
      rcases harg with htrue | hplain
      · exact absurd (hliteral.symm.trans htrue) Bool.false_ne_true
      · exact .value hliteral hplain hpending
    · rw [ht] at hu
      dsimp only at hu
      split at hu <;> cases hu

theorem stepped_of_step (hu : step s arg = .ok u) : Stepped s arg u := by
  by_cases hplain : s.literal = true ∨ IsPlain arg
  · rw [step_of_plain hplain] at hu
    exact stepped_of_plain hplain hu
  · obtain ⟨hliteral, harg⟩ := not_or.mp hplain
    rw [Bool.not_eq_true] at hliteral
    cases arg with
    | nil => exact absurd .empty harg
    | cons a rest =>
      obtain rfl : a = dash := Decidable.byContradiction fun hne => harg (.other hne)
      cases rest with
      | nil => exact absurd .dash harg
      | cons b rest =>
        by_cases hb : b = dash
        · subst hb
          cases rest with
          | nil =>
            rw [step_of_lone hliteral] at hu
            obtain rfl := Except.ok.inj hu
            exact .literal hliteral rfl
          | cons c rest =>
            rw [step_of_long hliteral (List.cons_ne_nil c rest) rfl] at hu
            exact stepped_of_long hliteral (List.cons_ne_nil c rest) rfl hu
        · have hshort : step s (dash :: b :: rest) = short s b := by
            unfold step
            simp [hliteral, hb]
          rw [hshort] at hu
          exact absurd hu (short_ne_ok b)

theorem step_of_takes {n : Name} {slot : Slot} {attached : Option Raw}
    (hliteral : s.literal = false) (hlong : IsLong arg n attached) (htakes : Takes n slot) :
    step s arg = valueOption s slot attached := by
  cases hlong with
  | intro hrest hsplit hname =>
    rw [step_of_long hliteral hrest hsplit]
    unfold long
    rw [hname]
    cases htakes <;> rfl

theorem step_of_acts (ht : settle s = .ok t) (hu : Acts t arg u) : step s arg = .ok u := by
  have hliteral := literal_of_settle ht
  cases hu with
  | unnamed harg hslot =>
    rw [hliteral] at harg
    rw [step_of_plain harg, plain_of_settle ht, hslot]
  | waiting hfalse hlong htakes =>
    rw [step_of_takes (hliteral.symm.trans hfalse) hlong htakes]
    exact valueOption_none_eq_ok_iff.mpr ⟨t, ht, rfl⟩
  | stored hfalse hlong htakes hstore =>
    rw [step_of_takes (hliteral.symm.trans hfalse) hlong htakes]
    exact valueOption_some_eq_ok_iff.mpr ⟨t, _, ht, hstore, rfl⟩
  | unchecked hfalse hlong hgiven =>
    cases hlong with
    | intro hrest hsplit hname =>
      rw [step_of_long (hliteral.symm.trans hfalse) hrest hsplit]
      unfold long
      rw [hname]
      exact noPreflight_eq_ok_iff.mpr ⟨t, ht, hgiven, rfl⟩

/-- A step comes to a state exactly if the argument does that to the state before it. -/
theorem step_eq_ok_iff : step s arg = .ok u ↔ Stepped s arg u := by
  constructor
  · exact stepped_of_step
  · intro hu
    cases hu with
    | literal hliteral harg =>
      subst harg
      exact step_of_lone hliteral
    | value hliteral hplain hpending =>
      rw [step_of_plain (Or.inr hplain), plain_of_waiting hliteral hpending]
    | acted ht hacts => exact step_of_acts ht hacts

theorem readAll_nil_eq_ok_iff :
    readAll s [] = .ok o ↔ ∃ t, settle s = .ok t ∧ conclude t.given = .ok o := by
  unfold readAll
  cases settle s <;> simp

theorem readAll_cons_eq_ok_iff :
    readAll s (arg :: args) = .ok o ↔ ∃ u, Stepped s arg u ∧ readAll u args = .ok o := by
  simp only [← step_eq_ok_iff]
  rw [readAll]
  cases step s arg <;> simp

/-- The states that arguments lead to, one after the other. -/
inductive Reached : State → List Raw → State → Prop where
  | refl (s : State) : Reached s [] s
  | step {s t u : State} {arg : Raw} {args : List Raw} : Stepped s arg t → Reached t args u →
      Reached s (arg :: args) u

theorem Reached.single (hu : Stepped s arg u) : Reached s [arg] u :=
  .step hu (.refl u)

theorem Reached.append {more : List Raw} (ht : Reached s args t) (hu : Reached t more u) :
    Reached s (args ++ more) u := by
  induction ht with
  | refl => exact hu
  | step ht _ ih => exact .step ht (ih hu)

theorem Stepped.unique (ht : Stepped s arg t) (hu : Stepped s arg u) : t = u :=
  Except.ok.inj ((step_eq_ok_iff.mpr ht).symm.trans (step_eq_ok_iff.mpr hu))

theorem Reached.unique (ht : Reached s args t) (hu : Reached s args u) : t = u := by
  induction ht with
  | refl =>
    cases hu
    rfl
  | step ht _ ih =>
    cases hu with
    | step hu hrest =>
      rw [hu.unique ht] at hrest
      exact ih hrest

theorem readAll_append_eq_ok_iff {more : List Raw} : readAll s (args ++ more) = .ok o ↔
    ∃ u, Reached s args u ∧ readAll u more = .ok o := by
  induction args generalizing s with
  | nil =>
    constructor
    · intro h
      exact ⟨s, .refl s, h⟩
    · rintro ⟨u, hu, h⟩
      cases hu
      exact h
  | cons arg args ih =>
    rw [List.cons_append, readAll_cons_eq_ok_iff]
    simp only [ih]
    constructor
    · rintro ⟨t, ht, u, hu, h⟩
      exact ⟨u, .step ht hu, h⟩
    · rintro ⟨u, hu, h⟩
      cases hu with
      | step ht hu => exact ⟨_, ht, u, hu, h⟩

theorem Stepped.before_lone (hu : Stepped s arg u) (hliteral : u.literal = false) :
    s.literal = false ∧ arg ≠ [dash, dash] := by
  have hbefore : s.literal = false := by
    cases hu with
    | literal => exact nomatch hliteral
    | value hfalse => exact hfalse
    | acted ht hacts =>
      rw [← literal_of_settle ht]
      cases hacts <;> exact hliteral
  refine ⟨hbefore, ?_⟩
  rintro rfl
  have hstep := step_eq_ok_iff.mpr hu
  rw [step_of_lone hbefore] at hstep
  obtain rfl := Except.ok.inj hstep
  exact nomatch hliteral

/-- Arguments are understood as options up to a lone `--`. -/
theorem Stepped.literal_eq (hu : Stepped s arg u) (hliteral : s.literal = false)
    (harg : arg ≠ [dash, dash]) : u.literal = false := by
  cases hu with
  | literal _ hlone => exact absurd hlone harg
  | value => exact hliteral
  | acted ht hacts =>
    have hsettled := (literal_of_settle ht).trans hliteral
    cases hacts <;> exact hsettled

theorem Reached.literal_eq (hu : Reached s args u) (hliteral : s.literal = false)
    (hargs : [dash, dash] ∉ args) : u.literal = false := by
  induction hu with
  | refl => exact hliteral
  | step ht _ ih =>
    rw [List.mem_cons, not_or] at hargs
    exact ih (ht.literal_eq hliteral (Ne.symm hargs.1)) hargs.2

theorem settle_ne_ok_of_waiting {slot : Slot} (hpending : s.pending = some ⟨slot, none⟩) :
    settle s ≠ .ok t := by
  unfold settle
  rw [hpending]
  exact nofun

/-- Behind a lone `--` an option cannot get its value any more. -/
theorem readAll_ne_ok_of_waiting {slot : Slot} (hpending : s.pending = some ⟨slot, none⟩)
    (hliteral : s.literal = true) : readAll s args ≠ .ok o := by
  intro ho
  cases args with
  | nil =>
    obtain ⟨t, ht, -⟩ := readAll_nil_eq_ok_iff.mp ho
    exact settle_ne_ok_of_waiting hpending ht
  | cons arg args =>
    obtain ⟨u, hu, -⟩ := readAll_cons_eq_ok_iff.mp ho
    cases hu with
    | literal hfalse => exact Bool.false_ne_true (hfalse.symm.trans hliteral)
    | value hfalse => exact Bool.false_ne_true (hfalse.symm.trans hliteral)
    | acted ht => exact settle_ne_ok_of_waiting hpending ht

/-- Unless an option waits for its value, reading goes on as if nothing were pending. -/
theorem readAll_iff_settled (hwaiting : ∀ slot, s.pending ≠ some ⟨slot, none⟩) :
    readAll s args = .ok o ↔ ∃ t, settle s = .ok t ∧ readAll t args = .ok o := by
  induction args generalizing s with
  | nil =>
    rw [readAll_nil_eq_ok_iff]
    constructor
    · rintro ⟨t, ht, ho⟩
      exact ⟨t, ht, readAll_nil_eq_ok_iff.mpr ⟨t, settle_of_none (pending_of_settle ht), ho⟩⟩
    · rintro ⟨t, ht, ho⟩
      obtain ⟨t', ht', ho⟩ := readAll_nil_eq_ok_iff.mp ho
      obtain rfl := Except.ok.inj ((settle_of_none (pending_of_settle ht)).symm.trans ht')
      exact ⟨t, ht, ho⟩
  | cons arg args ih =>
    rw [readAll_cons_eq_ok_iff]
    constructor
    · rintro ⟨u, hu, ho⟩
      cases hu with
      | literal hliteral harg =>
        obtain ⟨t, ht, ho⟩ := (ih (s := { s with literal := true }) hwaiting).mp ho
        obtain ⟨t, ht', rfl⟩ := exists_settle_of_literal ht
        exact ⟨t, ht', readAll_cons_eq_ok_iff.mpr
          ⟨_, .literal ((literal_of_settle ht').trans hliteral) harg, ho⟩⟩
      | value _ _ hpending => exact absurd hpending (hwaiting _)
      | acted ht hacts =>
        exact ⟨_, ht, readAll_cons_eq_ok_iff.mpr
          ⟨u, .acted (settle_of_none (pending_of_settle ht)) hacts, ho⟩⟩
    · rintro ⟨t, ht, ho⟩
      have hnone := pending_of_settle ht
      obtain ⟨u, hu, ho⟩ := readAll_cons_eq_ok_iff.mp ho
      cases hu with
      | literal hliteral harg =>
        rw [literal_of_settle ht] at hliteral
        exact ⟨_, .literal hliteral harg,
          (ih (s := { s with literal := true }) hwaiting).mpr ⟨_, settle_literal ht, ho⟩⟩
      | value _ _ hpending => exact nomatch hnone.symm.trans hpending
      | acted ht' hacts =>
        obtain rfl := Except.ok.inj ((settle_of_none hnone).symm.trans ht')
        exact ⟨u, .acted ht hacts, ho⟩

end

end ProbeLoader.Arguments
