import ProbeLoader.Path
import Mathlib.Order.Compare

/-!
# The order of paths

Paths are compared by their components, the first that differ deciding. The root comes first, then
a leading `.`, then `..`, and names come last, in the order of their bytes. It is a total order up
to spelling: two paths of which neither comes before the other have the same components.
-/

namespace ProbeLoader

namespace Path

/-- The place of a component among the kinds of components. -/
def Component.rank : Component → Nat
  | .root => 0
  | .current => 1
  | .parent => 2
  | .name _ => 3

/-- Which component comes before another one. -/
def Component.Before : Component → Component → Prop
  | .name bytes, .name bytes' => List.Lex (· < ·) bytes bytes'
  | a, b => a.rank < b.rank

/-- Which path comes before another one. -/
def Before (p q : Path) : Prop :=
  List.Lex Component.Before p.components q.components

/-- Whether two paths are the same but for their spelling. -/
def SameDirectory (p q : Path) : Prop := p.components = q.components

theorem compareLex_eq_lt_iff {α : Type} {cmp : α → α → Ordering} [Std.LawfulEqCmp cmp]
    {as bs : List α} :
    List.compareLex cmp as bs = .lt ↔ List.Lex (fun a b => cmp a b = .lt) as bs := by
  induction as generalizing bs with
  | nil => cases bs <;> simp [List.compareLex]
  | cons a as ih =>
    cases bs with
    | nil => simp [List.compareLex]
    | cons b bs =>
      rw [List.compareLex_cons_cons, Ordering.then_eq_lt, ih, List.cons_lex_cons_iff,
        Std.LawfulEqCmp.compare_eq_iff_eq]

namespace Component

theorem key_injective {a b : Component} (h : a.key = b.key) : a = b := by
  cases a <;> cases b <;> simp [key] at h ⊢
  exact h

theorem before_iff {a b : Component} :
    a.Before b ↔ List.compareLex compare a.key b.key = .lt := by
  have hbytes {x y : UInt8} : compare x y = .lt ↔ x < y := Std.compare_eq_lt
  rw [compareLex_eq_lt_iff]
  simp only [hbytes]
  cases a <;> cases b <;> simp [Before, rank, key, List.cons_lex_cons_iff]

end Component

/-- Comparing by keys is comparing by components. -/
theorem compareLex_map_key (as bs : List Component) :
    List.compareLex (List.compareLex compare) (as.map Component.key) (bs.map Component.key) = .lt ↔
      List.Lex Component.Before as bs := by
  rw [compareLex_eq_lt_iff]
  induction as generalizing bs with
  | nil => cases bs <;> simp
  | cons a as ih =>
    cases bs with
    | nil => simp
    | cons b bs =>
      have hkey : a.key = b.key ↔ a = b := ⟨Component.key_injective, congrArg _⟩
      rw [List.map_cons, List.map_cons, List.cons_lex_cons_iff, List.cons_lex_cons_iff, ih,
        ← Component.before_iff, hkey]

section

variable {p q r : Path}

theorem order_eq_lt_iff : order p q = .lt ↔ Before p q :=
  compareLex_map_key p.components q.components

theorem order_eq_eq_iff : order p q = .eq ↔ SameDirectory p q := by
  unfold order SameDirectory
  rw [Std.LawfulEqCmp.compare_eq_iff_eq]
  exact List.map_inj_right fun _ _ => Component.key_injective

theorem order_eq_gt_iff : order p q = .gt ↔ Before q p := by
  rw [← order_eq_lt_iff]
  unfold order
  exact Std.OrientedCmp.gt_iff_lt

theorem Before.trans (hpq : Before p q) (hqr : Before q r) : Before p r := by
  rw [← order_eq_lt_iff] at *
  unfold order at *
  exact Std.TransCmp.lt_trans hpq hqr

theorem Before.not_same (hpq : Before p q) : ¬ SameDirectory p q := by
  intro hsame
  have hlt := order_eq_lt_iff.mpr hpq
  rw [order_eq_eq_iff.mpr hsame] at hlt
  exact nomatch hlt

/-- The order does not depend on spelling. -/
theorem Before.congr {p' q' : Path} (hp : SameDirectory p p') (hq : SameDirectory q q')
    (hpq : Before p q) : Before p' q' := by
  unfold Before at *
  rwa [← hp, ← hq]

end

end Path

end ProbeLoader
