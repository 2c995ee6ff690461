import ProbeLoader.Text.Digits

/-!
# Decimal numbers

Numbers as they are written in decimal, and which of them double precision can hold. As many digits
as fit 64 bits are taken; they and the power of ten are each brought to the nearest double, and the
number has a value unless the product of the two is beyond the greatest double.
-/

namespace ProbeLoader

structure Decimal where
  negative : Bool
  whole : List Char
  fraction : List Char
  exponent : Int
  deriving DecidableEq, Repr, Inhabited

namespace Decimal

/-- The first number that does not fit 64 bits. -/
def wordLimit : Nat := 18446744073709551616

/-- Extends a number by the digits behind it as long as it fits 64 bits; also the number of digits
that are left. -/
def leading (n : Nat) : List Char → Nat × Nat
  | [] => (n, 0)
  | c :: cs =>
    let m := n * 10 + Text.digitValue c
    if m < wordLimit then leading m cs else (n, cs.length + 1)

/-- The leading digits of a number, and the power of ten that scales them to its size. -/
def scaled (d : Decimal) : Nat × Int :=
  let (n, dropped) := leading 0 d.whole
  let (n, unused) := leading n d.fraction
  (n, d.exponent + dropped + unused - d.fraction.length)

/-- The nearest number with a significand of 53 bits; of two the one whose significand is even. -/
def nearestDouble (n : Nat) : Nat :=
  let unit := Nat.pow 2 (n.log2 - 52)
  let q := n / unit
  let r := n % unit
  if unit < 2 * r ∨ (2 * r = unit ∧ q % 2 = 1) then (q + 1) * unit else q * unit

/-- The first number that is rounded away from the greatest double. -/
def doubleLimit : Nat := Nat.pow 2 1024 - Nat.pow 2 970

/-- The greatest power of ten that double precision holds. -/
def maxExponent : Int := 308

/-- Whether double precision holds a number. A small number is never refused, however close to
zero it is. -/
def fitsDouble (d : Decimal) : Bool :=
  let (n, e) := d.scaled
  n == 0 || e ≤ maxExponent && nearestDouble n * nearestDouble (Nat.pow 10 e.toNat) < doubleLimit

end Decimal

end ProbeLoader
