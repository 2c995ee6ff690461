import ProbeLoader.Text.Split

/-!
# White space and words

Two notions of blank. A line is blank when all of its characters have the Unicode property
`White_Space`; words are separated by ASCII white space alone, which the vertical tab is not
part of. Every separator is white space.
-/

namespace ProbeLoader.Text

/-- The characters of the Unicode property `White_Space`. -/
def isWhiteSpace (c : Char) : Bool :=
  let n := c.toNat
  (0x09 ≤ n && n ≤ 0x0D) || n == 0x20 || n == 0x85 || n == 0xA0 || n == 0x1680 ||
    (0x2000 ≤ n && n ≤ 0x200A) || n == 0x2028 || n == 0x2029 || n == 0x202F || n == 0x205F ||
    n == 0x3000

/-- Space, tab, line feed, form feed and carriage return. -/
def isSeparator (c : Char) : Bool :=
  c == ' ' || c == '\t' || c == '\n' || c == '\x0c' || c == '\r'

/-- The words of a text, in order. -/
def words (s : String) : List String :=
  (runs isSeparator s.toList).map String.ofList

/-- Whether a text has white space only. -/
def isBlank (s : String) : Bool :=
  s.toList.all isWhiteSpace

theorem isWhiteSpace_of_isSeparator {c : Char} (h : isSeparator c = true) :
    isWhiteSpace c = true := by
  simp only [isSeparator, Bool.or_eq_true, beq_iff_eq] at h
  rcases h with (((rfl | rfl) | rfl) | rfl) | rfl <;> rfl

end ProbeLoader.Text
