/-!
# Decimal digits

The number that a list of decimal digits spells, most significant digit first, and the texts that
spell a number. Zeros before its digits change nothing.
-/

namespace ProbeLoader.Text

def digitValue (c : Char) : Nat := c.toNat - '0'.toNat

/-- The number that digits spell. -/
def ofDigits (cs : List Char) : Nat :=
  cs.foldl (fun n c => n * 10 + digitValue c) 0

/-- A text that is a number in decimal, with any zeros before its digits. -/
def IsDecimal (n : Nat) (text : String) : Prop :=
  ∃ zeros, text.toList = List.replicate zeros '0' ++ Nat.toDigits 10 n

theorem ofDigits_eq_ofDigitChars (cs : List Char) : ofDigits cs = Nat.ofDigitChars 10 cs 0 := by
  rw [Nat.ofDigitChars_eq_foldl]
  simp only [ofDigits, digitValue, Nat.mul_comm]

namespace IsDecimal

variable {n : Nat} {text : String}

theorem isDigit_of_mem (htext : IsDecimal n text) {c : Char} (hc : c ∈ text.toList) :
    c.isDigit = true := by
  obtain ⟨zeros, htext⟩ := htext
  rw [htext] at hc
  rcases List.mem_append.mp hc with hzero | hdigit
  · rw [List.eq_of_mem_replicate hzero]
    rfl
  · exact Nat.isDigit_of_mem_toDigits (by decide) (by decide) hdigit

theorem not_mem (htext : IsDecimal n text) {c : Char} (hc : c.isDigit = false) :
    c ∉ text.toList := fun hmem => Bool.false_ne_true (hc.symm.trans (htext.isDigit_of_mem hmem))

theorem toList_ne_nil (htext : IsDecimal n text) : text.toList ≠ [] := by
  obtain ⟨zeros, htext⟩ := htext
  rw [htext]
  exact List.append_ne_nil_of_right_ne_nil _ Nat.toDigits_ne_nil

/-- A number is read back from its digits. -/
theorem ofDigits_eq (htext : IsDecimal n text) : ofDigits text.toList = n := by
  obtain ⟨zeros, htext⟩ := htext
  rw [ofDigits_eq_ofDigitChars, htext, Nat.ofDigitChars_append, Nat.ofDigitChars_replicate_zero,
    Nat.mul_zero, Nat.ofDigitChars_ten_toDigits]

end IsDecimal

end ProbeLoader.Text
