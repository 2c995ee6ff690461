import ProbeLoader.Proofs.CommandLine.Values

/-!
# The option for the log level

The log level may be given once, in either of two forms. Once it is given nothing else that is read
depends on which one it is, so another level at the same place, or none, asks for the same job.
-/

namespace ProbeLoader

theorem Log.Level.name_of_ofName? {l : Level} {text : String} (hname : ofName? text = some l) :
    l.name = text := by
  unfold ofName? at hname
  have hfound := List.find?_some hname
  exact eq_of_beq hfound

namespace Arguments

/-- The option for the log level, with its value behind `=` or as the next argument. -/
inductive SetsLevel (l : Log.Level) : List Raw → Prop where
  | attached : SetsLevel l [Utf8.encode ("--log-level=" ++ l.name)]
  | separate : SetsLevel l [Utf8.encode "--log-level", Utf8.encode l.name]

/-- What stands where the option for the log level may be: the option, or nothing. -/
inductive ChoosesLevel : Log.Level → List Raw → Prop where
  | given {l : Log.Level} {args : List Raw} : SetsLevel l args → ChoosesLevel l args
  | default : ChoosesLevel Options.defaultLevel []

/-- The same settings with another log level, or with none. -/
def Given.under (g : Given) (x : Option Log.Level) : Given := { g with logLevel := x }

def State.under (s : State) (x : Option Log.Level) : State := { s with given := s.given.under x }

/-- Whether nothing about the level was read so far. -/
structure State.IsFree (s : State) : Prop where
  given : s.given.logLevel = none
  pending : ∀ value, s.pending ≠ some ⟨.logLevel, value⟩

section

variable {g g' : Given} {s t u : State} {slot : Slot} {value arg : Raw} {args : List Raw}
  {o : Options} {l l' : Log.Level}

/-- A level is taken exactly if it is one of those there are and none was given before. -/
theorem store_level_eq_ok_iff : store g .logLevel value = .ok g' ↔
    ∃ l : Log.Level, value = Utf8.encode l.name ∧ g.logLevel = none ∧ g' = g.under (some l) := by
  unfold store
  dsimp only
  cases hlevel : g.logLevel with
  | some l =>
    constructor
    · intro hstore
      exact nomatch hstore
    · rintro ⟨_, _, hnone, _⟩
      exact nomatch hnone
  | none =>
    constructor
    · intro hstore
      cases hdecode : Utf8.decode? value with
      | none =>
        rw [hdecode] at hstore
        exact nomatch hstore
      | some text =>
        rw [hdecode] at hstore
        dsimp only at hstore
        cases hname : Log.Level.ofName? text with
        | none =>
          rw [hname] at hstore
          exact nomatch hstore
        | some l =>
          rw [hname] at hstore
          have htext := Log.Level.name_of_ofName? hname
          refine ⟨l, ?_, rfl, (Except.ok.inj hstore).symm⟩
          rw [htext]
          exact Utf8.decode?_eq_some_iff.mp hdecode
    · rintro ⟨l, rfl, -, rfl⟩
      rw [Utf8.decode?_encode]
      dsimp only
      rw [Log.Level.ofName?_name]
      rfl

theorem store_name_eq_ok_iff : store g .logLevel (Utf8.encode l.name) = .ok g' ↔
    g.logLevel = none ∧ g' = g.under (some l) := by
  rw [store_level_eq_ok_iff]
  constructor
  · rintro ⟨l', hname, hnone, rfl⟩
    have hlevels := congrArg Log.Level.ofName? (Utf8.encode_injective hname)
    rw [Log.Level.ofName?_name, Log.Level.ofName?_name] at hlevels
    exact ⟨hnone, by rw [hlevels]⟩
  · rintro ⟨hnone, rfl⟩
    exact ⟨l, rfl, hnone, rfl⟩

/-- Nothing else that is stored depends on the level or changes it. -/
theorem store_under (hslot : slot ≠ .logLevel) (hstore : store g slot value = .ok g') :
    g'.logLevel = g.logLevel ∧ ∀ x, store (g.under x) slot value = .ok (g'.under x) := by
  cases slot with
  | logLevel => exact absurd rfl hslot
  | object =>
    unfold store at hstore ⊢
    dsimp only at hstore ⊢
    split at hstore
    · exact nomatch hstore
    · rename_i hvalue
      obtain rfl := Except.ok.inj hstore
      exact ⟨rfl, fun x => if_neg hvalue⟩
  | config =>
    unfold store at hstore ⊢
    dsimp only at hstore ⊢
    cases hdecode : Utf8.decode? value with
    | none =>
      rw [hdecode] at hstore
      exact nomatch hstore
    | some text =>
      rw [hdecode] at hstore
      obtain rfl := Except.ok.inj hstore
      exact ⟨rfl, fun x => rfl⟩
  | cap =>
    unfold store at hstore ⊢
    dsimp only at hstore ⊢
    split at hstore
    · exact nomatch hstore
    · rename_i hcap
      cases hdecode : Utf8.decode? value with
      | none =>
        rw [hdecode] at hstore
        exact nomatch hstore
      | some text =>
        rw [hdecode] at hstore
        dsimp only at hstore
        cases hnumber : number? text with
        | none =>
          rw [hnumber] at hstore
          exact nomatch hstore
        | some n =>
          rw [hnumber] at hstore
          obtain rfl := Except.ok.inj hstore
          refine ⟨rfl, fun x => ?_⟩
          dsimp only
          rw [if_neg (show ¬ (g.under x).cap.isSome = true from hcap), hnumber]
          rfl

/-- What is stored sets the level for the first time, or has nothing to do with it. -/
theorem store_cases (hstore : store g slot value = .ok g') :
    (slot = .logLevel ∧ g.logLevel = none ∧
      ∃ l : Log.Level, value = Utf8.encode l.name ∧ g' = g.under (some l)) ∨
    (slot ≠ .logLevel ∧ g'.logLevel = g.logLevel ∧
      ∀ x, store (g.under x) slot value = .ok (g'.under x)) := by
  by_cases hslot : slot = .logLevel
  · subst hslot
    obtain ⟨l, hvalue, hnone, hg⟩ := store_level_eq_ok_iff.mp hstore
    exact Or.inl ⟨rfl, hnone, l, hvalue, hg⟩
  · exact Or.inr ⟨hslot, store_under hslot hstore⟩

theorem settle_under (ht : settle s = .ok t)
    (hslot : s.given.logLevel ≠ none ∨ ∀ value, s.pending ≠ some ⟨.logLevel, value⟩) :
    t.given.logLevel = s.given.logLevel ∧ ∀ x, settle (s.under x) = .ok (t.under x) := by
  rcases settle_cases ht with ⟨hpending, rfl⟩ | ⟨slot, value, g, hpending, hstore, rfl⟩
  · exact ⟨rfl, fun x => settle_of_none hpending⟩
  · rcases store_cases hstore with ⟨rfl, hnone, -⟩ | ⟨-, hkept, hunder⟩
    · rcases hslot with hgiven | hfree
      · exact absurd hnone hgiven
      · exact absurd hpending (hfree _)
    · exact ⟨hkept, fun x => settle_of_store hpending (hunder x)⟩

theorem Acts.under (hlevel : s.given.logLevel ≠ none) (hu : Acts s arg u) :
    u.given.logLevel = s.given.logLevel ∧ ∀ x, Acts (s.under x) arg (u.under x) := by
  cases hu with
  | unnamed harg hslot => exact ⟨rfl, fun x => .unnamed harg hslot⟩
  | waiting hliteral hlong htakes => exact ⟨rfl, fun x => .waiting hliteral hlong htakes⟩
  | stored hliteral hlong htakes hstore =>
    rcases store_cases hstore with ⟨-, hnone, -⟩ | ⟨-, hkept, hunder⟩
    · exact absurd hnone hlevel
    · exact ⟨hkept, fun x => .stored hliteral hlong htakes (hunder x)⟩
  | unchecked hliteral hlong hgiven => exact ⟨rfl, fun x => .unchecked hliteral hlong hgiven⟩

theorem Stepped.under (hlevel : s.given.logLevel ≠ none) (hu : Stepped s arg u) :
    u.given.logLevel = s.given.logLevel ∧ ∀ x, Stepped (s.under x) arg (u.under x) := by
  cases hu with
  | literal hliteral harg => exact ⟨rfl, fun x => .literal hliteral harg⟩
  | value hliteral hplain hpending => exact ⟨rfl, fun x => .value hliteral hplain hpending⟩
  | acted ht hacts =>
    obtain ⟨hsettled, hunder⟩ := settle_under ht (Or.inl hlevel)
    rw [← hsettled] at hlevel ⊢
    obtain ⟨hacted, hacts⟩ := hacts.under hlevel
    exact ⟨hacted, fun x => .acted (hunder x) (hacts x)⟩

theorem conclude_under (ho : conclude g = .ok o) :
    o.logLevel = g.logLevel.getD Options.defaultLevel ∧ ∀ x, conclude (g.under x) =
      .ok { o with logLevel := x.getD Options.defaultLevel } := by
  unfold conclude at ho ⊢
  cases hobject : g.object with
  | none =>
    rw [hobject] at ho
    exact nomatch ho
  | some object =>
    rw [hobject] at ho
    obtain rfl := Except.ok.inj ho
    refine ⟨rfl, fun x => ?_⟩
    rw [show (g.under x).object = some object from hobject]
    rfl

/-- Behind a level that is given, all else is read as behind any other level and behind none. -/
theorem readAll_under (hlevel : s.given.logLevel ≠ none) (ho : readAll s args = .ok o) :
    o.logLevel = s.given.logLevel.getD Options.defaultLevel ∧ ∀ x, readAll (s.under x) args =
      .ok { o with logLevel := x.getD Options.defaultLevel } := by
  induction args generalizing s with
  | nil =>
    obtain ⟨t, ht, ho⟩ := readAll_nil_eq_ok_iff.mp ho
    obtain ⟨hsettled, hunder⟩ := settle_under ht (Or.inl hlevel)
    obtain ⟨hresult, hconclude⟩ := conclude_under ho
    rw [hsettled] at hresult
    exact ⟨hresult, fun x => readAll_nil_eq_ok_iff.mpr ⟨_, hunder x, hconclude x⟩⟩
  | cons arg args ih =>
    obtain ⟨u, hu, ho⟩ := readAll_cons_eq_ok_iff.mp ho
    obtain ⟨hstepped, hunder⟩ := hu.under hlevel
    rw [← hstepped] at hlevel ⊢
    obtain ⟨hresult, hread⟩ := ih hlevel ho
    exact ⟨hresult, fun x => readAll_cons_eq_ok_iff.mpr ⟨_, hunder x, hread x⟩⟩

theorem encode_attached (l : Log.Level) : Utf8.encode ("--log-level=" ++ l.name) =
    Name.logLevel.option ++ equals :: Utf8.encode l.name := by
  cases l <;> decide

theorem encode_separate : Utf8.encode "--log-level" = Name.logLevel.option := by
  decide

theorem IsLong.eq_attached (hlong : IsLong arg .logLevel (some (Utf8.encode l.name))) :
    arg = Utf8.encode ("--log-level=" ++ l.name) :=
  (isLong_iff.mp hlong).trans (encode_attached l).symm

theorem IsLong.eq_separate (hlong : IsLong arg .logLevel none) :
    arg = Utf8.encode "--log-level" := by
  rw [isLong_iff.mp hlong, encode_separate]
  exact List.append_nil _

theorem isPlain_name (l : Log.Level) : IsPlain (Utf8.encode l.name) := by
  cases l <;> exact .other (by decide)

theorem SetsLevel.supplies {given : List Raw} (hgiven : SetsLevel l given) :
    Supplies .logLevel (Utf8.encode l.name) given := by
  cases hgiven with
  | attached =>
    rw [encode_attached]
    exact .attached
  | separate =>
    rw [encode_separate]
    exact .separate

/-- At the option for the log level, reading goes on exactly if no level was given before. -/
theorem readAll_level_eq_ok_iff {given : List Raw} (hgiven : SetsLevel l given)
    (hliteral : s.literal = false) : readAll s (given ++ args) = .ok o ↔
      ∃ t, settle s = .ok t ∧ t.given.logLevel = none ∧
        readAll (t.under (some l)) args = .ok o := by
  rw [hgiven.supplies.readAll_eq_ok_iff .logLevel (isPlain_name l) hliteral]
  constructor
  · rintro ⟨t, g, ht, hstore, ho⟩
    obtain ⟨hnone, rfl⟩ := store_name_eq_ok_iff.mp hstore
    exact ⟨t, ht, hnone, ho⟩
  · rintro ⟨t, ht, hnone, ho⟩
    exact ⟨t, _, ht, store_name_eq_ok_iff.mpr ⟨hnone, rfl⟩, ho⟩

/-- With another level at the place of the one that was given, or with none, the rest of the options
is the same. -/
theorem read_of_varied {before given given' after : List Raw} (hbefore : [dash, dash] ∉ before)
    (hgiven : SetsLevel l given) (hgiven' : ChoosesLevel l' given')
    (hread : read (before ++ given ++ after) = .ok o) :
    o.logLevel = l ∧ read (before ++ given' ++ after) = .ok { o with logLevel := l' } := by
  unfold read at hread ⊢
  rw [List.append_assoc, readAll_append_eq_ok_iff] at hread
  obtain ⟨s, hs, hread⟩ := hread
  have hliteral := hs.literal_eq rfl hbefore
  obtain ⟨t, ht, hnone, hread⟩ := (readAll_level_eq_ok_iff hgiven hliteral).mp hread
  obtain ⟨hlevel, hunder⟩ := readAll_under (s := t.under (some l)) nofun hread
  refine ⟨hlevel, ?_⟩
  rw [List.append_assoc, readAll_append_eq_ok_iff]
  refine ⟨s, hs, ?_⟩
  cases hgiven' with
  | given hgiven' =>
    exact (readAll_level_eq_ok_iff hgiven' hliteral).mpr ⟨t, ht, hnone, hunder (some l')⟩
  | default =>
    have hwaiting (slot : Slot) : s.pending ≠ some ⟨slot, none⟩ := fun hpending =>
      settle_ne_ok_of_waiting hpending ht
    refine (readAll_iff_settled hwaiting).mpr ⟨t, ht, ?_⟩
    have hsame : (t.under (some l)).under none = t := by
      unfold State.under Given.under
      rw [← hnone]
    rw [← hsame]
    exact hunder none

/-- An argument is about the level, or it is read under any level that is given before. -/
theorem Acts.level_cases (hfree : s.IsFree) (hu : Acts s arg u) :
    (s.literal = false ∧ ∃ l : Log.Level, arg = Utf8.encode ("--log-level=" ++ l.name)) ∨
    (arg = Utf8.encode "--log-level" ∧ u.pending = some ⟨.logLevel, none⟩) ∨
    (u.IsFree ∧ ∀ x, Acts (s.under x) arg (u.under x)) := by
  cases hu with
  | unnamed harg hslot =>
    rename_i slot
    refine Or.inr (Or.inr ⟨⟨hfree.given, ?_⟩, fun x => .unnamed harg hslot⟩)
    rintro value hpending
    cases hpending
    revert hslot
    unfold unnamedSlot?
    split <;> exact nofun
  | waiting hliteral hlong htakes =>
    cases htakes with
    | logLevel => exact Or.inr (Or.inl ⟨hlong.eq_separate, rfl⟩)
    | cap => exact Or.inr (Or.inr ⟨⟨hfree.given, nofun⟩, fun x => .waiting hliteral hlong .cap⟩)
  | stored hliteral hlong htakes hstore =>
    rcases store_cases hstore with ⟨rfl, -, l, rfl, -⟩ | ⟨-, hkept, hunder⟩
    · cases htakes
      exact Or.inl ⟨hliteral, l, hlong.eq_attached⟩
    · exact Or.inr (Or.inr ⟨⟨hkept.trans hfree.given, hfree.pending⟩,
        fun x => .stored hliteral hlong htakes (hunder x)⟩)
  | unchecked hliteral hlong hgiven =>
    exact Or.inr (Or.inr ⟨⟨hfree.given, hfree.pending⟩,
      fun x => .unchecked hliteral hlong hgiven⟩)

theorem Stepped.level_cases (hfree : s.IsFree) (hu : Stepped s arg u) :
    (s.literal = false ∧ ∃ l : Log.Level, arg = Utf8.encode ("--log-level=" ++ l.name)) ∨
    (arg = Utf8.encode "--log-level" ∧ u.pending = some ⟨.logLevel, none⟩) ∨
    (u.IsFree ∧ ∀ x, Stepped (s.under x) arg (u.under x)) := by
  cases hu with
  | literal hliteral harg =>
    exact Or.inr (Or.inr ⟨⟨hfree.given, hfree.pending⟩, fun x => .literal hliteral harg⟩)
  | value hliteral hplain hpending =>
    refine Or.inr (Or.inr ⟨⟨hfree.given, ?_⟩, fun x => .value hliteral hplain hpending⟩)
    intro value heq
    cases heq
    exact hfree.pending none hpending
  | acted ht hacts =>
    obtain ⟨hkept, hunder⟩ := settle_under ht (Or.inr hfree.pending)
    have hsettled : State.IsFree _ := ⟨hkept.trans hfree.given, by simp [pending_of_settle ht]⟩
    rcases hacts.level_cases hsettled with ⟨hliteral, hl⟩ | hwaiting | ⟨hacted, hacts⟩
    · exact Or.inl ⟨(literal_of_settle ht).symm.trans hliteral, hl⟩
    · exact Or.inr (Or.inl hwaiting)
    · exact Or.inr (Or.inr ⟨hacted, fun x => .acted (hunder x) (hacts x)⟩)

/-- The option for the level needs the name of one as its value. -/
theorem exists_name_of_waiting (hpending : s.pending = some ⟨.logLevel, none⟩)
    (ho : readAll s args = .ok o) :
    s.literal = false ∧ ∃ (l : Log.Level) (after : List Raw),
      args = Utf8.encode l.name :: after := by
  cases args with
  | nil =>
    obtain ⟨t, ht, -⟩ := readAll_nil_eq_ok_iff.mp ho
    exact absurd ht (settle_ne_ok_of_waiting hpending)
  | cons arg args =>
    obtain ⟨u, hu, hrest⟩ := readAll_cons_eq_ok_iff.mp ho
    cases hu with
    | literal => exact absurd hrest (readAll_ne_ok_of_waiting hpending rfl)
    | acted ht => exact absurd ht (settle_ne_ok_of_waiting hpending)
    | value hliteral hplain hslot =>
      cases hpending.symm.trans hslot
      obtain ⟨t, ht, -⟩ := (readAll_iff_settled (by simp)).mp hrest
      rcases settle_cases ht with ⟨hnone, -⟩ | ⟨slot, value, g, hvalue, hstore, -⟩
      · exact nomatch hnone
      · cases hvalue
        obtain ⟨l, hname, -⟩ := store_level_eq_ok_iff.mp hstore
        exact ⟨hliteral, l, args, by rw [hname]⟩

/-- Arguments have the option for the level at some place, or they are read under any level. -/
theorem exists_place (hfree : s.IsFree) (ho : readAll s args = .ok o) :
    (s.literal = false ∧ ∃ l before given after, args = before ++ given ++ after ∧
      [dash, dash] ∉ before ∧ SetsLevel l given) ∨
    (o.logLevel = Options.defaultLevel ∧ ∀ x, readAll (s.under x) args =
      .ok { o with logLevel := x.getD Options.defaultLevel }) := by
  induction args generalizing s with
  | nil =>
    obtain ⟨t, ht, ho⟩ := readAll_nil_eq_ok_iff.mp ho
    obtain ⟨hkept, hunder⟩ := settle_under ht (Or.inr hfree.pending)
    obtain ⟨hresult, hconclude⟩ := conclude_under ho
    rw [hkept, hfree.given] at hresult
    exact Or.inr ⟨hresult, fun x => readAll_nil_eq_ok_iff.mpr ⟨_, hunder x, hconclude x⟩⟩
  | cons arg args ih =>
    obtain ⟨u, hu, hrest⟩ := readAll_cons_eq_ok_iff.mp ho
    rcases hu.level_cases hfree with ⟨hliteral, l, rfl⟩ | ⟨rfl, hwaiting⟩ | ⟨hfree', hunder⟩
    · exact Or.inl ⟨hliteral, l, [], _, args, rfl, List.not_mem_nil, .attached⟩
    · obtain ⟨hliteral, l, after, rfl⟩ := exists_name_of_waiting hwaiting hrest
      exact Or.inl ⟨(hu.before_lone hliteral).1, l, [], _, after, rfl, List.not_mem_nil, .separate⟩
    · rcases ih hfree' hrest with ⟨hliteral, l, before, given, after, rfl, hbefore, hgiven⟩ |
        ⟨hresult, hread⟩
      · obtain ⟨hliteral, harg⟩ := hu.before_lone hliteral
        refine Or.inl ⟨hliteral, l, arg :: before, given, after, rfl, ?_, hgiven⟩
        intro hlone
        rcases List.mem_cons.mp hlone with heq | hmem
        · exact harg heq.symm
        · exact hbefore hmem
      · exact Or.inr ⟨hresult, fun x => readAll_cons_eq_ok_iff.mpr ⟨_, hunder x, hread x⟩⟩

/-- Whatever was read can be read under any level, which is asked for at one place. -/
theorem exists_place_of_read (hread : read args = .ok o) :
    ∃ before given after, args = before ++ given ++ after ∧ [dash, dash] ∉ before ∧
      ChoosesLevel o.logLevel given ∧ ∀ l' given', ChoosesLevel l' given' →
        read (before ++ given' ++ after) = .ok { o with logLevel := l' } := by
  rcases exists_place (s := .initial) ⟨rfl, nofun⟩ hread with
    ⟨-, l, before, given, after, rfl, hbefore, hgiven⟩ | ⟨hdefault, hunder⟩
  · obtain ⟨rfl, -⟩ := read_of_varied hbefore hgiven (.given hgiven) hread
    exact ⟨before, given, after, rfl, hbefore, .given hgiven,
      fun l' given' hgiven' => (read_of_varied hbefore hgiven hgiven' hread).2⟩
  · refine ⟨[], [], args, rfl, List.not_mem_nil, hdefault ▸ .default, ?_⟩
    intro l' given' hgiven'
    cases hgiven' with
    | given hgiven' =>
      exact (readAll_level_eq_ok_iff hgiven' rfl).mpr ⟨_, rfl, rfl, hunder (some l')⟩
    | default =>
      rw [← hdefault]
      exact hread

end

end Arguments

end ProbeLoader
