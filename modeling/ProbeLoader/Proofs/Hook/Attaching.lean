import ProbeLoader.Hook.Placement
import ProbeLoader.Link
import ProbeLoader.Proofs.Hook.Target
import ProbeLoader.Proofs.Text.Words

/-!
# From a target to a hook point and back

A target of a tracepoint is refused unless it is a group without a colon, a colon and an event. In
every other case the hook point keeps all that the directive says: its kind and its target can be
read off the hook point itself, off the text that it is shown by, and off what a module is told when
it is asked to attach. A target that names no hook point leaves the module alone.
-/

namespace ProbeLoader

/-- Whether a kind and a target are what a module is told. -/
def Placement.Spells : Placement → ProbeKind → String → Prop
  | .tracepoint group name, kind, target => kind = .tracepoint ∧ group ++ ":" ++ name = target
  | .kprobe symbol retprobe, kind, target =>
    kind ≠ .tracepoint ∧ symbol = target ∧ (retprobe = true ↔ kind = .kretprobe)

namespace Hook

/-- A group without a colon, a colon and an event, neither group nor event empty. -/
def IsTracepointTarget (target : String) : Prop :=
  ∃ group name, target = group ++ ":" ++ name ∧ group ≠ "" ∧ ':' ∉ group.toList ∧ name ≠ ""

/-- What becomes of a target of a kind. -/
structure TargetKept (kind : ProbeKind) (target : String) : Prop where
  named_iff : (∃ hook, ofTarget kind target = .ok hook) ↔
    kind ≠ .tracepoint ∨ IsTracepointTarget target
  reason : ∀ e, ofTarget kind target = .error e → kind = .tracepoint ∧
    e.message =
      if ':' ∈ target.toList then "empty tracepoint group or name" else "expected 'group:name'"
  shown : ∀ hook, ofTarget kind target = .ok hook → hook.shown = kind.name ++ ": " ++ target
  eq_iff : ∀ kind' target' hook hook', ofTarget kind target = .ok hook →
    ofTarget kind' target' = .ok hook' → (hook = hook' ↔ kind = kind' ∧ target = target')
  shown_eq_iff : ∀ kind' target' hook hook', ofTarget kind target = .ok hook →
    ofTarget kind' target' = .ok hook' →
    (hook.shown = hook'.shown ↔ kind = kind' ∧ target = target')
  attached : ∀ hook, ofTarget kind target = .ok hook → hook.placement.Spells kind target ∧
    ∀ h s p, (Link.attach h s p kind target).trace.calls = [.attach p hook]
  unattached : ∀ e, ofTarget kind target = .error e → ∀ h s p,
    Link.attach h s p kind target = ⟨.error (.invalidTarget kind target e.message), s, []⟩

section

variable {kind kind' : ProbeKind} {target target' : String} {hook hook' : Hook}

theorem Named.kind_eq (hnamed : Named kind target hook) : hook.kind = kind := by
  cases hnamed <;> rfl

theorem Named.target_eq (hnamed : Named kind target hook) : hook.target = target := by
  cases hnamed <;> rfl

theorem exists_named_iff :
    (∃ hook, Named kind target hook) ↔ kind ≠ .tracepoint ∨ IsTracepointTarget target := by
  constructor
  · rintro ⟨hook, hnamed⟩
    cases hnamed with
    | tracepoint hgroup hgroupNe hnameNe => exact Or.inr ⟨_, _, rfl, hgroupNe, hgroup, hnameNe⟩
    | kprobe => exact Or.inl ProbeKind.noConfusion
    | kretprobe => exact Or.inl ProbeKind.noConfusion
  · intro htarget
    cases kind with
    | kprobe => exact ⟨_, .kprobe target⟩
    | kretprobe => exact ⟨_, .kretprobe target⟩
    | tracepoint =>
      rcases htarget with hkind | ⟨group, name, rfl, hgroupNe, hgroup, hnameNe⟩
      · exact absurd rfl hkind
      · exact ⟨_, .tracepoint hgroup hgroupNe hnameNe⟩

/-- The text of a hook point gives its kind and its target back, for no kind has a colon. -/
theorem shown_inj (hshown : hook.shown = hook'.shown) :
    hook.kind = hook'.kind ∧ hook.target = hook'.target := by
  have hkind (k : ProbeKind) : ∀ c ∈ k.name.toList, (c != ':') = true := by
    rw [← List.all_eq_true]
    cases k <;> rfl
  have hcut (h : Hook) : h.shown.toList = h.kind.name.toList ++ ':' :: ' ' :: h.target.toList := by
    simp [Hook.shown]
  have hlists := congrArg String.toList hshown
  rw [hcut, hcut] at hlists
  obtain ⟨hnames, hrest⟩ := Text.append_inj_of_boundary (hkind hook.kind) (hkind hook'.kind)
    (by simp) (by simp) hlists
  have hkinds : ProbeKind.ofName? hook.kind.name = ProbeKind.ofName? hook'.kind.name := by
    rw [String.toList_inj.mp hnames]
  rw [ProbeKind.ofName?_name, ProbeKind.ofName?_name] at hkinds
  have htargets := (List.cons.inj (List.cons.inj hrest).2).2
  exact ⟨Option.some.inj hkinds, String.toList_inj.mp htargets⟩

theorem Named.shown_eq (hnamed : Named kind target hook) :
    hook.shown = kind.name ++ ": " ++ target := by
  unfold Hook.shown
  rw [hnamed.kind_eq, hnamed.target_eq]

theorem Named.unique (hnamed : Named kind target hook) (hnamed' : Named kind target hook') :
    hook = hook' := by
  rw [← ofTarget_eq_ok_iff] at hnamed hnamed'
  exact Except.ok.inj (hnamed.symm.trans hnamed')

theorem Named.shown_eq_iff (hnamed : Named kind target hook) (hnamed' : Named kind' target' hook') :
    hook.shown = hook'.shown ↔ kind = kind' ∧ target = target' := by
  constructor
  · intro hshown
    have hboth := shown_inj hshown
    rwa [hnamed.kind_eq, hnamed'.kind_eq, hnamed.target_eq, hnamed'.target_eq] at hboth
  · rintro ⟨rfl, rfl⟩
    rw [hnamed.shown_eq, hnamed'.shown_eq]

theorem Named.eq_iff (hnamed : Named kind target hook) (hnamed' : Named kind' target' hook') :
    hook = hook' ↔ kind = kind' ∧ target = target' := by
  constructor
  · rintro rfl
    exact (hnamed.shown_eq_iff hnamed').mp rfl
  · rintro ⟨rfl, rfl⟩
    exact hnamed.unique hnamed'

theorem Named.spells (hnamed : Named kind target hook) : hook.placement.Spells kind target := by
  cases hnamed with
  | tracepoint => exact ⟨rfl, rfl⟩
  | kprobe => exact ⟨ProbeKind.noConfusion, rfl, by decide⟩
  | kretprobe => exact ⟨ProbeKind.noConfusion, rfl, by decide⟩

theorem reason_of_ofTarget {e : TargetError} (he : ofTarget kind target = .error e) :
    kind = .tracepoint ∧ e.message =
      if ':' ∈ target.toList then "empty tracepoint group or name" else "expected 'group:name'" := by
  cases kind with
  | kprobe => exact nomatch he
  | kretprobe => exact nomatch he
  | tracepoint =>
    refine ⟨rfl, ?_⟩
    have hcolon : target.toList.dropWhile (· != ':') = [] ↔ ':' ∉ target.toList := by
      rw [List.dropWhile_eq_nil_iff]
      constructor
      · intro hall hmem
        exact absurd (hall ':' hmem) (by decide)
      · intro hnot c hc
        apply bne_iff_ne.mpr
        rintro rfl
        exact hnot hc
    change ofTracepointTarget target = .error e at he
    unfold ofTracepointTarget at he
    dsimp only at he
    split at he
    · rename_i hdrop
      obtain rfl := Except.error.inj he
      rw [if_neg (hcolon.mp hdrop)]
      rfl
    · rename_i c name hdrop
      have hmem : ':' ∈ target.toList := by
        by_contra hnot
        rw [hcolon.mpr hnot] at hdrop
        exact nomatch hdrop
      rw [if_pos hmem]
      split at he
      · obtain rfl := Except.error.inj he
        rfl
      · exact nomatch he

end

/-- A target keeps its meaning all the way to the module, or the module is not asked. -/
theorem ofTarget_targetKept (kind : ProbeKind) (target : String) : TargetKept kind target := by
  have hnamed {kind target hook} (hok : ofTarget kind target = .ok hook) : Named kind target hook :=
    ofTarget_eq_ok_iff.mp hok
  refine ⟨?_, fun _ => reason_of_ofTarget, fun _ hok => (hnamed hok).shown_eq,
    fun _ _ _ _ hok hok' => (hnamed hok).eq_iff (hnamed hok'),
    fun _ _ _ _ hok hok' => (hnamed hok).shown_eq_iff (hnamed hok'), ?_, ?_⟩
  · simp only [ofTarget_eq_ok_iff]
    exact exists_named_iff
  · intro hook hok
    refine ⟨(hnamed hok).spells, ?_⟩
    intro h s p
    unfold Link.attach
    rw [hok]
    dsimp only
    unfold Link.attachAt
    cases h.attachFailure p hook <;> rfl
  · intro e he h s p
    unfold Link.attach
    rw [he]

end Hook

end ProbeLoader
