import ProbeLoader.Link.Table
import ProbeLoader.Proofs.Link.Lifecycle

/-!
# What one operation can do

An operation on a table of links does one of eight things. Resolving a name and attaching a program
are about no link that exists; persisting is about the link that it takes out of the table, and
about nothing if that link is not held. What an operation that fails leaves behind is the table it
found, less the link that was to be persisted.
-/

namespace ProbeLoader

/-- The link that an operation is about. -/
def Operation.link? : Operation → Option LinkId
  | .persist link _ => some link
  | _ => none

namespace LinkTable

/-- The links that are held after an operation that made none. -/
def heldAfter (t : LinkTable) : Operation → List LinkId
  | .persist link _ => t.held.erase link
  | _ => t.held

/-- What an operation comes to on a table: the answer, the table it leaves and its events. -/
inductive Performed (h : Host) (t : LinkTable) : Operation → Answer × LinkTable × Trace → Prop where
  | resolved {name : String} {p : ProgramRef} : h.program? name = some p →
      Performed h t (.resolve name) (.resolved p, t, (Link.resolve h t.session name).trace)
  | unresolved {name : String} : h.program? name = none →
      Performed h t (.resolve name)
        (.failed (.programNotFound name h.names), t, (Link.resolve h t.session name).trace)
  | invalid {p : ProgramRef} {kind : ProbeKind} {target : String} {e : Hook.TargetError} :
      Hook.ofTarget kind target = .error e →
      Performed h t (.attach p kind target) (.failed (.invalidTarget kind target e.message), t, [])
  | refused {p : ProgramRef} {kind : ProbeKind} {target : String} {hook : Hook} {chain : Chain} :
      Hook.ofTarget kind target = .ok hook → h.attachFailure p hook = some chain →
      Performed h t (.attach p kind target)
        (.failed (.attachFailed hook chain), t, [.call (.attach p hook)])
  | attached {p : ProgramRef} {kind : ProbeKind} {target : String} {hook : Hook} :
      Hook.ofTarget kind target = .ok hook → h.attachFailure p hook = none →
      Performed h t (.attach p kind target)
        (.attached (t.session.links + 1),
          ⟨{ t.session with links := t.session.links + 1 }, t.held ++ [t.session.links + 1]⟩,
          [.call (.attach p hook), .say (Link.attachedLine hook)])
  | unpinned {link : LinkId} {path : Path} {chain : Chain} : link ∈ t.held →
      h.pinFailure t.session.pinned path = some chain →
      Performed h t (.persist link path)
        (.failed (.pinFailed path chain), ⟨t.session, t.held.erase link⟩,
          [.call (.pin link path), .call (.detach link)])
  | persisted {link : LinkId} {path : Path} : link ∈ t.held →
      h.pinFailure t.session.pinned path = none →
      Performed h t (.persist link path)
        (.persisted, ⟨{ t.session with pinned := path :: t.session.pinned }, t.held.erase link⟩,
          [.call (.pin link path), .call (.disconnect link), .say (Link.pinnedLine path)])
  | noLink {link : LinkId} {path : Path} : link ∉ t.held →
      Performed h t (.persist link path) (.noLink, t, [])

variable {h : Host} {t : LinkTable} {op : Operation} {r : Answer × LinkTable × Trace}

theorem perform_performed (h : Host) (t : LinkTable) (op : Operation) :
    Performed h t op (t.perform h op) := by
  cases op with
  | resolve name =>
    rcases Link.resolve_cases h t.session name with ⟨p, hp, hr⟩ | ⟨hp, hr⟩
    · have hi := Performed.resolved (t := t) hp
      simpa only [perform, hr] using hi
    · have hi := Performed.unresolved (t := t) hp
      simpa only [perform, hr] using hi
  | attach p kind target =>
    cases ht : Hook.ofTarget kind target with
    | error e =>
      have hi := Performed.invalid (h := h) (t := t) (p := p) ht
      simpa only [perform, Link.attach, ht] using hi
    | ok hook =>
      cases ha : h.attachFailure p hook with
      | some chain =>
        have hi := Performed.refused (t := t) ht ha
        simpa only [perform, Link.attach, ht, Link.attachAt, ha] using hi
      | none =>
        have hi := Performed.attached (t := t) ht ha
        simpa only [perform, Link.attach, ht, Link.attachAt, ha] using hi
  | persist link path =>
    by_cases hheld : link ∈ t.held
    · cases hf : h.pinFailure t.session.pinned path with
      | some chain =>
        have hi := Performed.unpinned hheld hf
        simpa only [perform, if_pos hheld, Link.persist, hf] using hi
      | none =>
        have hi := Performed.persisted hheld hf
        simpa only [perform, if_pos hheld, Link.persist, hf] using hi
    · simp only [perform, if_neg hheld]
      exact .noLink hheld

/-- All calls of an operation are about its own link; resolving and attaching are about none. -/
theorem Performed.link?_of_mem (hr : Performed h t op r) {c : Call} (hc : c ∈ r.2.2.calls) :
    c.link? = op.link? := by
  have hlook {name : String} (hc : c ∈ h.lookups name) : c.link? = none := by
    rcases Link.mem_lookups hc with rfl | rfl | rfl <;> rfl
  cases hr with
  | resolved => exact hlook (by simpa using hc)
  | unresolved => exact hlook (by simpa using hc)
  | invalid => exact absurd hc List.not_mem_nil
  | refused =>
    obtain rfl := List.mem_singleton.mp hc
    rfl
  | attached =>
    obtain rfl := List.mem_singleton.mp hc
    rfl
  | unpinned =>
    rcases List.mem_cons.mp hc with rfl | hc
    · rfl
    · obtain rfl := List.mem_singleton.mp hc
      rfl
  | persisted =>
    rcases List.mem_cons.mp hc with rfl | hc
    · rfl
    · obtain rfl := List.mem_singleton.mp hc
      rfl
  | noLink => exact absurd hc List.not_mem_nil

theorem Performed.about_eq_nil (hr : Performed h t op r) {link : LinkId}
    (hlink : op.link? ≠ some link) : about link r.2.2.calls = [] := by
  apply List.filter_eq_nil_iff.mpr
  intro c hc
  rw [hr.link?_of_mem hc, beq_iff_eq]
  exact hlink

/-- A link is pinned by persisting it at that path. -/
theorem Performed.eq_persist_of_pin (hr : Performed h t op r) {link : LinkId} {path : Path}
    (hpin : .pin link path ∈ r.2.2.calls) : op = .persist link path := by
  have hlink := hr.link?_of_mem hpin
  cases hr with
  | unpinned =>
    rcases List.mem_cons.mp hpin with heq | hpin
    · cases heq
      rfl
    · cases List.mem_singleton.mp hpin
  | persisted =>
    rcases List.mem_cons.mp hpin with heq | hpin
    · cases heq
      rfl
    · cases List.mem_singleton.mp hpin
  | noLink => exact absurd hpin List.not_mem_nil
  | _ => cases hlink

/-- An operation that fails takes at most its own link away. -/
theorem Performed.table_of_failed (hr : Performed h t op r) {e : DirectiveError}
    (hfailed : r.1 = .failed e) : r.2.1 = ⟨t.session, t.heldAfter op⟩ := by
  cases hr with
  | unresolved => rfl
  | invalid => rfl
  | refused => rfl
  | unpinned => rfl
  | _ => cases hfailed

theorem Performed.eq_noLink {link : LinkId} {path : Path}
    (hr : Performed h t (.persist link path) r) (hheld : link ∉ t.held) : r = (.noLink, t, []) := by
  cases hr with
  | unpinned hmem => exact absurd hmem hheld
  | persisted hmem => exact absurd hmem hheld
  | noLink => rfl

end LinkTable

end ProbeLoader
