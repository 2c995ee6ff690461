import ProbeLoader.Proofs.CommandLine.Level
import Mathlib.Data.List.Nodup

/-!
# Arranged arguments

What is asked for can be put on the command line in many ways: the options stand in any order and
anywhere between the object and the configuration, and their values behind `=` or as arguments of
their own. However it is put, it is read back, and only what was left out is filled in.
-/

namespace ProbeLoader.Arguments

open Text

/-- A path that can be given as the object. -/
abbrev ObjectPath := { path : Path // path.bytes ≠ [] ∧ IsPlain path.bytes }

/-- A name that can be given as the configuration. -/
abbrev ConfigName := { name : String // IsPlain (Utf8.encode name) }

/-- What one asks for. -/
structure Request where
  object : ObjectPath
  config : Option ConfigName
  logLevel : Option Log.Level
  cap : Option (Fin numberLimit)
  noPreflight : Bool

/-- One of the things that one asks for. -/
inductive Part where
  | object (path : ObjectPath)
  | config (name : ConfigName)
  | logLevel (l : Log.Level)
  | cap (n : Fin numberLimit)
  | noPreflight

namespace Part

/-- Whether a part is given without a name. -/
def isUnnamed : Part → Bool
  | .object _ | .config _ => true
  | .logLevel _ | .cap _ | .noPreflight => false

/-- The arguments that give a part. -/
inductive IsWritten : Part → List Raw → Prop where
  | object (path : ObjectPath) : IsWritten (.object path) [path.val.bytes]
  | config (name : ConfigName) : IsWritten (.config name) [Utf8.encode name.val]
  | logLevel {l : Log.Level} {given : List Raw} :
      Supplies .logLevel (Utf8.encode l.name) given → IsWritten (.logLevel l) given
  | cap {n : Fin numberLimit} {text : String} {given : List Raw} : IsDecimal n text →
      Supplies .cap (Utf8.encode text) given → IsWritten (.cap n) given
  | noPreflight : IsWritten .noPreflight [Name.noPreflight.option]

/-- The slot of a part, unless it has no value. -/
def slot? : Part → Option Slot
  | .object _ => some .object
  | .config _ => some .config
  | .logLevel _ => some .logLevel
  | .cap _ => some .cap
  | .noPreflight => none

/-- The settings with one part more. -/
def onto (g : Given) : Part → Given
  | .object path => { g with object := some path.val }
  | .config name => { g with config := some name.val }
  | .logLevel l => { g with logLevel := some l }
  | .cap n => { g with cap := some n }
  | .noPreflight => { g with noPreflight := true }

/-- Whether a part may still be given. -/
def IsNew (g : Given) : Part → Prop
  | .object _ | .config _ => True
  | .logLevel _ => g.logLevel = none
  | .cap _ => g.cap = none
  | .noPreflight => g.noPreflight = false

end Part

/-- Parts that are written one after the other. -/
inductive AreWritten : List Part → List Raw → Prop where
  | nil : AreWritten [] []
  | cons {p : Part} {ps : List Part} {given args : List Raw} : p.IsWritten given →
      AreWritten ps args → AreWritten (p :: ps) (given ++ args)

/-- The settings that arguments give, where nothing stands for what they leave out. -/
def Gives (args : List Raw) (g : Given) : Prop :=
  ∃ s t, Reached .initial args s ∧ settle s = .ok t ∧ t.given = g

/-- The source that is chosen by a name for the configuration, or by leaving it out. -/
inductive Chooses : Option String → ConfigSource → Prop where
  | omitted : Chooses none .default
  | stdin : Chooses (some "-") .stdin
  | file {name : String} : name ≠ "-" → Chooses (some name) (.file (.ofString name))

namespace Request

/-- The object and, behind it, the configuration. -/
def unnamed (r : Request) : List Part :=
  .object r.object :: (r.config.map .config).toList

def options (r : Request) : List Part :=
  (r.logLevel.map .logLevel).toList ++ (r.cap.map .cap).toList ++
    if r.noPreflight then [.noPreflight] else []

/-- The parts of a request in an order in which they may be given. -/
structure IsArranged (r : Request) (ps : List Part) : Prop where
  unnamed : ps.filter Part.isUnnamed = r.unnamed
  options : (ps.filter fun p => !p.isUnnamed).Perm r.options

/-- The settings that say what is asked for, and nothing where nothing is. -/
def given (r : Request) : Given where
  object := some r.object.val
  config := r.config.map Subtype.val
  logLevel := r.logLevel
  cap := r.cap.map Fin.val
  noPreflight := r.noPreflight

/-- What is read from arguments is what a request asks for. -/
structure IsRead (r : Request) (args : List Raw) (o : Options) : Prop where
  given : Gives args r.given
  object : o.job.object = r.object
  config : Chooses r.given.config o.job.config
  stdin : o.job.config = .stdin ↔ r.given.config = some "-"
  /-- The default has to stand for the configuration exactly if the request leaves it out. -/
  omitted : (∃ g, Gives args g ∧ g.config = none) ↔ r.config = none
  /-- The name of the default file, when it is given, asks for the same file. -/
  default : o.job.config = .default ↔
    r.given.config = none ∨ r.given.config = some ConfigSource.defaultName
  cap : o.job.cap = r.given.cap
  preflight : o.job.preflight = !r.noPreflight
  logLevel : o.logLevel = r.logLevel.getD Options.defaultLevel

end Request

section

variable {s : State} {g g' : Given} {raw : Raw} {slot : Slot} {n : Nat}

/-- A state in which nothing is pending and options are understood. -/
def State.settled (g : Given) (n : Nat) : State := ⟨g, none, n, false⟩

theorem exists_reached_of_unnamed (hraw : IsPlain raw) (hslot : unnamedSlot? n = some slot)
    (hs : settle s = .ok (.settled g n)) (hstore : store g slot raw = .ok g') :
    ∃ u, Reached s [raw] u ∧ settle u = .ok (.settled g' (n + 1)) := by
  have hacts : Acts (.settled g n) raw _ := .unnamed (Or.inr hraw) hslot
  exact ⟨_, .single (.acted hs hacts), settle_of_store rfl hstore⟩

theorem store_object (path : ObjectPath) :
    store g .object path.val.bytes = .ok { g with object := some path.val } := by
  unfold store
  exact if_neg (by simp [path.property.1])

theorem store_config (name : String) :
    store g .config (Utf8.encode name) = .ok { g with config := some name } := by
  unfold store
  dsimp only
  rw [Utf8.decode?_encode]

theorem store_cap {text : String} (hcap : g.cap = none) (htext : IsDecimal n text)
    (hn : n < numberLimit) :
    store g .cap (Utf8.encode text) = .ok { g with cap := some n } := by
  unfold store
  simp [hcap, number?_of_isDecimal htext hn]

end

namespace Part

variable {p q : Part} {g : Given} {given : List Raw} {n : Nat}

/-- A part that is new is stored. -/
theorem IsWritten.exists_reached {s : State} (hgiven : p.IsWritten given)
    (hs : settle s = .ok (.settled g n)) (hnew : p.IsNew g)
    (hplace : p.isUnnamed = true → unnamedSlot? n = p.slot?) :
    ∃ u, Reached s given u ∧
      settle u = .ok (.settled (p.onto g) (if p.isUnnamed then n + 1 else n)) := by
  cases hgiven with
  | object path =>
    exact exists_reached_of_unnamed path.property.2 (hplace rfl) hs (store_object path)
  | config name =>
    exact exists_reached_of_unnamed name.property (hplace rfl) hs (store_config name.val)
  | logLevel hgiven =>
    exact hgiven.exists_reached .logLevel (isPlain_name _) rfl hs
      (store_name_eq_ok_iff.mpr ⟨hnew, rfl⟩)
  | cap htext hgiven =>
    exact hgiven.exists_reached .cap (isPlain_of_isDecimal htext) rfl hs
      (store_cap hnew htext (Fin.is_lt _))
  | noPreflight =>
    have hacts : Acts (.settled g n) _ _ := .unchecked rfl (isLong_separate .noPreflight) hnew
    exact ⟨_, .single (.acted hs hacts), settle_of_none rfl⟩

theorem isNew_initial (p : Part) : p.IsNew State.initial.given := by
  cases p <;> first | rfl | trivial

theorem IsNew.onto (hq : q.IsNew g) (hne : p.slot? ≠ q.slot?) : q.IsNew (p.onto g) := by
  cases p <;> cases q <;> first | exact hq | exact absurd rfl hne

theorem onto_comm (hne : p.slot? ≠ q.slot?) : q.onto (p.onto g) = p.onto (q.onto g) := by
  cases p <;> cases q <;> first | rfl | exact absurd rfl hne

end Part

/-- Of parts with slots of their own, all orders say the same. -/
theorem Part.foldl_onto_perm {ps qs : List Part} (hps : ps.Perm qs)
    (hslots : (ps.map Part.slot?).Nodup) (g : Given) :
    ps.foldl Part.onto g = qs.foldl Part.onto g := by
  refine hps.foldl_eq' ?_ g
  intro p hp q hq g
  by_cases hslot : p.slot? = q.slot?
  · rw [List.inj_on_of_nodup_map hslots hp hq hslot]
  · exact Part.onto_comm hslot

namespace Request

variable {r : Request} {p : Part} {ps : List Part} {n : Nat}

theorem unnamedSlot?_of_drop (hps : r.unnamed.drop n = p :: ps) : unnamedSlot? n = p.slot? := by
  unfold unnamed at hps
  match n with
  | 0 =>
    obtain ⟨rfl, -⟩ := List.cons.inj hps
    rfl
  | n + 1 =>
    cases hconfig : r.config with
    | none => simp [hconfig] at hps
    | some name =>
      rw [hconfig] at hps
      match n with
      | 0 =>
        obtain ⟨rfl, -⟩ := List.cons.inj hps
        rfl
      | n + 1 => simp at hps

theorem nodup_slots (r : Request) : ((r.unnamed ++ r.options).map Part.slot?).Nodup := by
  obtain ⟨object, config, logLevel, cap, noPreflight⟩ := r
  cases config <;> cases logLevel <;> cases cap <;> cases noPreflight <;>
    simp [unnamed, options, Part.slot?]

theorem foldl_onto (r : Request) :
    (r.unnamed ++ r.options).foldl Part.onto State.initial.given = r.given := by
  obtain ⟨object, config, logLevel, cap, noPreflight⟩ := r
  cases config <;> cases logLevel <;> cases cap <;> cases noPreflight <;> rfl

theorem IsArranged.perm (hps : r.IsArranged ps) : (r.unnamed ++ r.options).Perm ps := by
  rw [← hps.unnamed]
  exact (hps.options.symm.append_left _).trans (List.filter_append_perm Part.isUnnamed ps)

end Request

/-- Parts are stored one after the other as long as the object comes before the configuration. -/
theorem AreWritten.exists_reached {ps : List Part} {args : List Raw} (hargs : AreWritten ps args)
    {s : State} {g : Given} {n : Nat} {r : Request} (hs : settle s = .ok (.settled g n))
    (hunnamed : ps.filter Part.isUnnamed = r.unnamed.drop n) (hslots : (ps.map Part.slot?).Nodup)
    (hnew : ∀ p ∈ ps, p.IsNew g) :
    ∃ u m, Reached s args u ∧ settle u = .ok (.settled (ps.foldl Part.onto g) m) := by
  induction hargs generalizing s g n with
  | nil => exact ⟨s, n, .refl s, hs⟩
  | @cons p ps given args hgiven hargs ih =>
    rw [List.map_cons, List.nodup_cons] at hslots
    obtain ⟨hslot, hslots⟩ := hslots
    -- What carries the induction: the parts that are left stay new, as no two share a slot.
    have hnew' : ∀ q ∈ ps, q.IsNew (p.onto g) := by
      intro q hq
      refine (hnew q (List.mem_cons_of_mem p hq)).onto ?_
      intro heq
      exact hslot (heq ▸ List.mem_map_of_mem hq)
    have hplace : p.isUnnamed = true → unnamedSlot? n = p.slot? := by
      intro hp
      rw [List.filter_cons_of_pos hp] at hunnamed
      exact Request.unnamedSlot?_of_drop hunnamed.symm
    have hrest : ps.filter Part.isUnnamed = r.unnamed.drop (if p.isUnnamed then n + 1 else n) := by
      rw [List.filter_cons] at hunnamed
      split at hunnamed
      · rename_i hp
        rw [if_pos hp, ← List.tail_drop, ← hunnamed, List.tail_cons]
      · rename_i hp
        rw [if_neg hp, hunnamed]
    obtain ⟨t, ht, htsettled⟩ := hgiven.exists_reached hs (hnew p List.mem_cons_self) hplace
    obtain ⟨u, m, hu, husettled⟩ := ih htsettled hrest hslots hnew'
    exact ⟨u, m, ht.append hu, husettled⟩

theorem Request.IsArranged.gives {r : Request} {ps : List Part} {args : List Raw}
    (hps : r.IsArranged ps) (hargs : AreWritten ps args) : Gives args r.given := by
  have hslots : (ps.map Part.slot?).Nodup := (hps.perm.map _).nodup_iff.mp r.nodup_slots
  have hgiven : ps.foldl Part.onto State.initial.given = r.given := by
    rw [← Part.foldl_onto_perm hps.perm r.nodup_slots, r.foldl_onto]
  have hinitial : settle .initial = .ok (.settled State.initial.given 0) := rfl
  obtain ⟨u, m, hu, hsettled⟩ :=
    hargs.exists_reached hinitial hps.unnamed hslots fun p _ => p.isNew_initial
  exact ⟨u, _, hu, hsettled, hgiven⟩

theorem Gives.unique {args : List Raw} {g g' : Given} (hg : Gives args g) (hg' : Gives args g') :
    g = g' := by
  obtain ⟨s, t, hs, ht, rfl⟩ := hg
  obtain ⟨s', t', hs', ht', rfl⟩ := hg'
  rw [hs.unique hs'] at ht
  rw [Except.ok.inj (ht.symm.trans ht')]

theorem Gives.read_eq_ok {args : List Raw} {g : Given} {o : Options} (hgiven : Gives args g)
    (ho : conclude g = .ok o) : read args = .ok o := by
  obtain ⟨s, t, hs, ht, rfl⟩ := hgiven
  have hread := readAll_append_eq_ok_iff.mpr ⟨s, hs, readAll_nil_eq_ok_iff.mpr ⟨t, ht, ho⟩⟩
  rwa [List.append_nil] at hread

section

variable {config : Option String}

theorem chooses_ofName (config : Option String) :
    Chooses config (.ofName (config.getD ConfigSource.defaultName)) := by
  cases config with
  | none => exact .omitted
  | some name =>
    by_cases hname : name = "-"
    · subst hname
      exact .stdin
    · unfold ConfigSource.ofName
      rw [Option.getD_some, if_neg hname]
      exact .file hname

theorem Chooses.eq_stdin_iff {source : ConfigSource} (hsource : Chooses config source) :
    source = .stdin ↔ config = some "-" := by
  cases hsource with
  | omitted => exact iff_of_false nofun nofun
  | stdin => exact iff_of_true rfl rfl
  | file hname => exact iff_of_false nofun fun heq => hname (Option.some.inj heq)

theorem Chooses.eq_default_iff {source : ConfigSource} (hsource : Chooses config source) :
    source = .default ↔ config = none ∨ config = some ConfigSource.defaultName := by
  cases hsource with
  | omitted => exact iff_of_true rfl (Or.inl rfl)
  | stdin => exact iff_of_false nofun (by decide)
  | file hname =>
    constructor
    · intro heq
      have hbytes := congrArg Path.bytes (ConfigSource.file.inj heq)
      exact Or.inr (congrArg some (Utf8.encode_injective hbytes))
    · rintro (hnone | hsome)
      · exact nomatch hnone
      · rw [Option.some.inj hsome]
        rfl

end

/-- However a request is put on the command line, it is read back. -/
theorem read_arranged {r : Request} {ps : List Part} {args : List Raw} (hps : r.IsArranged ps)
    (hargs : AreWritten ps args) : ∃ o, read args = .ok o ∧ r.IsRead args o := by
  have hgiven := hps.gives hargs
  have hconfig := chooses_ofName r.given.config
  have homitted : (∃ g, Gives args g ∧ g.config = none) ↔ r.config = none := by
    rw [← Option.map_eq_none_iff (f := Subtype.val)]
    constructor
    · rintro ⟨g, hg, hnone⟩
      rwa [hg.unique hgiven] at hnone
    · intro hnone
      exact ⟨r.given, hgiven, hnone⟩
  obtain ⟨o, ho⟩ : ∃ o, conclude r.given = .ok o := ⟨_, rfl⟩
  refine ⟨o, hgiven.read_eq_ok ho, ?_⟩
  obtain rfl := Except.ok.inj ho
  exact ⟨hgiven, rfl, hconfig, hconfig.eq_stdin_iff, homitted, hconfig.eq_default_iff, rfl, rfl, rfl⟩

/-- A dash is an object or a configuration, and options may stand between the two. -/
theorem read_arranged_dashes :
    let n : Fin numberLimit := ⟨18446744073709551615, by decide⟩
    let r : Request := ⟨⟨⟨[dash]⟩, by decide, .dash⟩, some ⟨"-", .dash⟩, some .debug, some n, true⟩
    let ps : List Part :=
      [.cap n, .object r.object, .noPreflight, .logLevel .debug, .config ⟨"-", .dash⟩]
    let args := ["--max-directives=018446744073709551615", "-", "--no-preflight", "--log-level",
      "debug", "-"].map Utf8.encode
    r.IsArranged ps ∧ AreWritten ps args ∧
      ∃ o, read args = .ok o ∧ o.job = ⟨⟨[dash]⟩, .stdin, some 18446744073709551615, false⟩ := by
  intro n r ps args
  have hps : r.IsArranged ps :=
    ⟨rfl, List.perm_append_singleton (Part.logLevel .debug) [.cap n, .noPreflight]⟩
  have htext : IsDecimal n "018446744073709551615" := ⟨1, by decide +kernel⟩
  have hargs : AreWritten ps args :=
    .cons (.cap htext .attached) <| .cons (.object _) <| .cons .noPreflight <|
      .cons (.logLevel .separate) <| .cons (.config _) .nil
  obtain ⟨o, ho, hread⟩ := read_arranged hps hargs
  have hjob : o.job = ⟨o.job.object, o.job.config, o.job.cap, o.job.preflight⟩ := rfl
  refine ⟨hps, hargs, o, ho, ?_⟩
  rw [hjob, hread.object, hread.stdin.mpr rfl, hread.cap, hread.preflight]
  rfl

end ProbeLoader.Arguments
