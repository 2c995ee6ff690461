import ProbeLoader.Path
import ProbeLoader.Proofs.Text.Segments
import Mathlib.Data.List.DropRight

/-!
# Parents of paths

The parent of a path lacks its last component and nothing else, and it is spelled as the path is up
to there. Slashes at the end, repeated slashes and dots between them have no part in it. A path
without components and the root are the only ones that have no parent.
-/

namespace ProbeLoader

namespace Path

/-- The lead of bytes. A dot that more of a segment follows is part of a name. -/
inductive HasLead : List UInt8 → List UInt8 → Prop where
  | root {rest : List UInt8} : HasLead (slash :: rest) [slash]
  | current {rest : List UInt8} : rest = [] ∨ rest.head? = some slash → HasLead (dot :: rest) [dot]
  | empty : HasLead [] []
  | segment {b : UInt8} {rest : List UInt8} : b ≠ slash →
      ¬ (b = dot ∧ (rest = [] ∨ rest.head? = some slash)) → HasLead (b :: rest) []

/-- A path and what its parent is: the path without its last component, if that is not the root. -/
inductive HasParent (p : Path) : Option Path → Prop where
  | none : p.components = [] ∨ p.components = [.root] → HasParent p none
  | some {q : Path} {c : Component} : p.components = q.components ++ [c] → c ≠ .root →
      q.bytes <+: p.bytes → HasParent p (some q)

section

variable {p q : Path}

theorem lead_eq_iff {l : List UInt8} : p.lead = l ↔ HasLead p.bytes l := by
  constructor
  · rintro rfl
    unfold lead
    split
    · next h =>
      rw [h]
      exact .empty
    · next b rest h =>
      rw [h]
      split
      · next hb =>
        rw [hb]
        exact .root
      · next hb =>
        split
        · next hdot =>
          rw [hdot.1]
          exact .current hdot.2
        · next hdot => exact .segment hb hdot
  · intro h
    unfold lead
    cases hbytes : p.bytes with
    | nil =>
      rw [hbytes] at h
      cases h
      rfl
    | cons b rest =>
      rw [hbytes] at h
      dsimp only
      cases h with
      | root => rfl
      | current hrest => rw [if_neg (by decide), if_pos ⟨rfl, hrest⟩]
      | segment hb hdot => rw [if_neg hb, if_neg hdot]

theorem HasLead.eq_append {bytes l : List UInt8} (h : HasLead bytes l) :
    bytes = l ++ bytes.drop l.length := by
  cases h <;> rfl

/-- Bytes up to a slash, or no further than their lead, have the same lead. -/
theorem HasLead.of_cut {bytes l front : List UInt8} (h : HasLead bytes l)
    (hcut : front = [] ∨ ∃ more, bytes = l ++ front ++ slash :: more) :
    HasLead (l ++ front) l := by
  have hstops (front more : List UInt8) : (front = [] ∨ front.head? = some slash) ↔
      (front ++ slash :: more = [] ∨ (front ++ slash :: more).head? = some slash) := by
    cases front <;> simp
  cases h with
  | root => exact .root
  | current hrest =>
    apply HasLead.current
    rcases hcut with rfl | ⟨more, hmore⟩
    · exact Or.inl rfl
    · obtain rfl := (List.cons.inj hmore).2
      exact (hstops front more).mpr hrest
  | empty =>
    rcases hcut with rfl | ⟨more, hmore⟩
    · exact .empty
    · simp at hmore
  | segment hb hdot =>
    rcases hcut with rfl | ⟨more, hmore⟩
    · exact .empty
    · cases front with
      | nil => exact absurd (List.cons.inj hmore).1 hb
      | cons b front =>
        obtain ⟨rfl, rfl⟩ := List.cons.inj hmore
        exact .segment hb fun h => hdot ⟨h.1, (hstops front more).mp h.2⟩

theorem bytes_eq (p : Path) : p.bytes = p.lead ++ [slash].intercalate p.body := by
  unfold body
  rw [Text.intercalate_segments]
  exact (lead_eq_iff.mp (Eq.refl p.lead)).eq_append

/-- The components of a path that has the lead of another one and given segments behind it. -/
theorem components_of_lead (hlead : q.lead = p.lead) {ss : List (List UInt8)}
    (hss : ∀ s ∈ ss, slash ∉ s) (hq : q.bytes = p.lead ++ [slash].intercalate ss) :
    q.components =
      p.leadComponents ++ (ss.filter fun s => !isIdle s).map Component.ofSegment := by
  have hbody : (q.body.filter fun s => !isIdle s) = ss.filter fun s => !isIdle s := by
    unfold body
    rw [hlead, hq, List.drop_left]
    cases ss with
    | nil => rfl
    | cons s ss => rw [Text.segments_intercalate slash hss (List.cons_ne_nil s ss)]
  unfold components leadComponents
  rw [hlead, hbody]

theorem trimEnd_eq (ss : List (List UInt8)) : trimEnd ss = ss.rdropWhile isIdle := rfl

theorem trimEnd_append (ss : List (List UInt8)) : ∃ gap, ss = trimEnd ss ++ gap :=
  ⟨_, List.rdropWhile_append_rtakeWhile.symm⟩

theorem filter_trimEnd (ss : List (List UInt8)) :
    ((trimEnd ss).filter fun s => !isIdle s) = ss.filter fun s => !isIdle s := by
  induction ss using List.reverseRecOn with
  | nil => rfl
  | append_singleton ss s ih =>
    rw [trimEnd_eq, List.rdropWhile_concat]
    split
    · next hs =>
      rw [← trimEnd_eq, ih]
      simp [hs]
    · rfl

theorem intercalate_append {ss rest : List (List UInt8)} (hss : ss ≠ []) (hrest : rest ≠ []) :
    [slash].intercalate (ss ++ rest) =
      [slash].intercalate ss ++ slash :: [slash].intercalate rest := by
  induction ss with
  | nil => exact absurd rfl hss
  | cons s ss ih =>
    cases ss with
    | nil =>
      obtain ⟨r, rest, rfl⟩ := List.exists_cons_of_ne_nil hrest
      simp [List.intercalate_cons_cons]
    | cons s' ss =>
      have htail := ih (List.cons_ne_nil s' ss)
      rw [List.cons_append, List.cons_append, List.intercalate_cons_cons,
        List.intercalate_cons_cons, ← List.cons_append, htail]
      simp

/-- The lead alone is the path of no segments that say something. -/
theorem hasParent_of_trimEnd_eq_nil (hbody : trimEnd p.body = []) : HasParent p p.parent? := by
  have hcomponents : p.components = p.leadComponents := by
    have hnone := filter_trimEnd p.body
    rw [hbody] at hnone
    unfold components
    rw [← hnone]
    exact List.append_nil _
  unfold parent?
  rw [hbody]
  dsimp only
  split
  · next hdot =>
    have hcurrent : p.leadComponents = [.current] := by
      unfold leadComponents
      rw [hdot]
      rfl
    rw [hcurrent] at hcomponents
    exact .some hcomponents (by decide) List.nil_prefix
  · next hdot =>
    apply HasParent.none
    rw [hcomponents]
    unfold leadComponents
    by_cases hroot : p.lead = [slash]
    · exact Or.inr (if_pos hroot)
    · rw [if_neg hroot, if_neg hdot]
      exact Or.inl rfl

theorem hasParent_of_trimEnd_eq_concat {front : List (List UInt8)} {last : List UInt8}
    (hbody : trimEnd p.body = front ++ [last]) : HasParent p p.parent? := by
  have hlast : isIdle last = false := by
    have hne : p.body.rdropWhile isIdle ≠ [] := by
      rw [← trimEnd_eq, hbody]
      simp
    have hstop := List.rdropWhile_last_not isIdle p.body hne
    simpa [← trimEnd_eq, hbody] using hstop
  -- The path goes on from its parent with idle segments, the last component and more of them.
  obtain ⟨behind, hbehind⟩ := trimEnd_append p.body
  obtain ⟨gap, hgap⟩ := trimEnd_append front
  have hsegments : p.body = trimEnd front ++ (gap ++ last :: behind) := by
    calc p.body
      _ = front ++ [last] ++ behind := by rw [← hbody, ← hbehind]
      _ = trimEnd front ++ (gap ++ last :: behind) := by
        rw [List.append_assoc, List.singleton_append, ← List.append_assoc, ← hgap]
  have hcut : [slash].intercalate (trimEnd front) = [] ∨ ∃ more,
      p.bytes = p.lead ++ [slash].intercalate (trimEnd front) ++ slash :: more := by
    by_cases hnil : trimEnd front = []
    · rw [hnil]
      exact Or.inl rfl
    · refine Or.inr ⟨[slash].intercalate (gap ++ last :: behind), ?_⟩
      rw [List.append_assoc, ← intercalate_append hnil (by simp), ← hsegments, ← bytes_eq]
  let q : Path := ⟨p.lead ++ [slash].intercalate (trimEnd front)⟩
  have hparent : p.parent? = some q := by
    unfold parent?
    rw [hbody]
    simp [q]
  have hlead : q.lead = p.lead :=
    lead_eq_iff.mpr ((lead_eq_iff.mp (Eq.refl p.lead)).of_cut hcut)
  have hfree : ∀ s ∈ trimEnd front, slash ∉ s := by
    intro s hs
    apply Text.not_mem_of_mem_segments slash
    change s ∈ p.body
    rw [hsegments]
    exact List.mem_append_left _ hs
  have hq := components_of_lead (q := q) hlead hfree rfl
  have hp : p.components = q.components ++ [Component.ofSegment last] := by
    rw [hq]
    unfold components
    rw [← filter_trimEnd p.body, hbody, List.filter_append, filter_trimEnd]
    simp [hlast]
  rw [hparent]
  refine .some hp ?_ ?_
  · unfold Component.ofSegment
    split <;> simp
  · rcases hcut with hnil | ⟨more, hmore⟩
    · have hqbytes : q.bytes = p.lead := by
        change p.lead ++ _ = p.lead
        rw [hnil, List.append_nil]
      rw [hqbytes, bytes_eq p]
      exact List.prefix_append _ _
    · rw [hmore]
      exact List.prefix_append _ _

theorem exists_segment {b : UInt8} (hb : b ≠ slash) (rest : List UInt8) :
    ∃ first others, Text.segments (· == slash) (b :: rest) = (b :: first) :: others ∧
      (first = [] → rest = [] ∨ rest.head? = some slash) := by
  have hsep : (b == slash) = false := beq_eq_false_iff_ne.mpr hb
  have hcons (c : UInt8) (l : List UInt8) (hc : (c == slash) = false) :
      Text.segments (· == slash) (c :: l) =
        Text.consFirst c (Text.segments (· == slash) l) := by
    rw [Text.segments, hc]
    rfl
  rw [hcons b rest hsep]
  cases hrest : Text.segments (· == slash) rest with
  | nil => exact absurd hrest (Text.segments_ne_nil _ _)
  | cons first others =>
    refine ⟨first, others, rfl, ?_⟩
    rintro rfl
    cases rest with
    | nil => exact Or.inl rfl
    | cons c rest =>
      by_cases hc : (c == slash) = true
      · exact Or.inr (congrArg some (eq_of_beq hc))
      · rw [hcons c rest (Bool.eq_false_iff.mpr hc)] at hrest
        cases hmore : Text.segments (· == slash) rest with
        | nil => exact absurd hmore (Text.segments_ne_nil _ _)
        | cons s ss =>
          rw [hmore] at hrest
          exact absurd (List.cons.inj hrest).1 (List.cons_ne_nil c s)

/-- Only the empty path has no components. -/
theorem components_eq_nil_iff : p.components = [] ↔ p.bytes = [] := by
  constructor
  · intro hnil
    obtain ⟨hlead, hbody⟩ := List.append_eq_nil_iff.mp hnil
    have hhas := lead_eq_iff.mp (Eq.refl p.lead)
    generalize hbytes : p.bytes = bytes at hhas
    generalize hl : p.lead = l at hhas
    unfold leadComponents at hlead
    cases hhas with
    | root => simp [hl] at hlead
    | current => simp [hl, slash, dot] at hlead
    | empty => rfl
    | @segment b rest hb hdot =>
      -- The first segment says something, be it only that a dot stands before a name.
      obtain ⟨first, others, hparts, hfirst⟩ := exists_segment hb rest
      unfold body at hbody
      rw [hl, hbytes, List.length_nil, List.drop_zero, hparts] at hbody
      have hidle : isIdle (b :: first) = false := by
        apply Bool.eq_false_iff.mpr
        intro hidle
        rcases Bool.or_eq_true_iff.mp hidle with h | h
        · exact nomatch eq_of_beq h
        · obtain ⟨rfl, rfl⟩ := List.cons.inj (eq_of_beq h)
          exact hdot ⟨rfl, hfirst rfl⟩
      simp [hidle] at hbody
  · intro hbytes
    obtain ⟨bytes⟩ := p
    obtain rfl := hbytes
    rfl

/-- What the parent of a path is. -/
theorem parent?_hasParent (p : Path) : HasParent p p.parent? := by
  rcases List.eq_nil_or_concat' (trimEnd p.body) with hbody | ⟨front, last, hbody⟩
  · exact hasParent_of_trimEnd_eq_nil hbody
  · exact hasParent_of_trimEnd_eq_concat hbody

end

end Path

end ProbeLoader
