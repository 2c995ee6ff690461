import ProbeLoader.Text.Utf8

/-!
# Reading back what was written

The bytes of a text are read as the characters of that text, whatever bytes follow them. So every
text is the reading of its bytes, strictly or with replacements, and no two texts have the same
bytes.
-/

namespace ProbeLoader.Utf8

theorem toNat_ofNat_of_lt {n : Nat} (h : n < 256) : (UInt8.ofNat n).toNat = n := by
  simp [Nat.mod_eq_of_lt h]

theorem start_ofNat_one {n : Nat} (h : n ≤ 0x7F) :
    start (UInt8.ofNat n) = ([.char (Char.ofNat n)], .between) := by
  simp only [start, toNat_ofNat_of_lt (show n < 256 by omega), if_pos h]

theorem start_ofNat_two {n : Nat} (h : 0xC2 ≤ n) (h' : n ≤ 0xDF) :
    start (UInt8.ofNat n) = ([], .inside (n - 0xC0) 0 0x80 0xBF) := by
  simp only [start, toNat_ofNat_of_lt (show n < 256 by omega)]
  rw [if_neg (by omega), if_neg (by omega), if_pos h']

theorem start_ofNat_three {n : Nat} (h : 0xE0 ≤ n) (h' : n ≤ 0xEF) :
    start (UInt8.ofNat n) = ([], .inside (n - 0xE0) 1 (if n = 0xE0 then 0xA0 else 0x80)
      (if n = 0xED then 0x9F else 0xBF)) := by
  simp only [start, toNat_ofNat_of_lt (show n < 256 by omega)]
  rw [if_neg (by omega), if_neg (by omega), if_neg (by omega), if_pos h']

theorem start_ofNat_four {n : Nat} (h : 0xF0 ≤ n) (h' : n ≤ 0xF4) :
    start (UInt8.ofNat n) = ([], .inside (n - 0xF0) 2 (if n = 0xF0 then 0x90 else 0x80)
      (if n = 0xF4 then 0x8F else 0xBF)) := by
  simp only [start, toNat_ofNat_of_lt (show n < 256 by omega)]
  rw [if_neg (by omega), if_neg (by omega), if_neg (by omega), if_neg (by omega), if_pos h']

theorem pieces_between_cons (b : UInt8) (bs : List UInt8) :
    pieces .between (b :: bs) = (start b).1 ++ pieces (start b).2 bs := rfl

/-- A byte in the range that is asked for goes on with the character. -/
theorem pieces_inside_succ {bits more low high n : Nat} (h : low ≤ n) (h' : n ≤ high)
    (hn : n < 256) (bs : List UInt8) :
    pieces (.inside bits (more + 1) low high) (UInt8.ofNat n :: bs) =
      pieces (.inside (bits * 64 + (n - 0x80)) more 0x80 0xBF) bs := by
  simp [pieces, step, toNat_ofNat_of_lt hn, h, h']

/-- The last byte of a character completes it. -/
theorem pieces_inside_zero {bits low high n : Nat} (h : low ≤ n) (h' : n ≤ high)
    (hn : n < 256) (bs : List UInt8) :
    pieces (.inside bits 0 low high) (UInt8.ofNat n :: bs) =
      .char (Char.ofNat (bits * 64 + (n - 0x80))) :: pieces .between bs := by
  simp [pieces, step, toNat_ofNat_of_lt hn, h, h']

/-- A character is read back from its bytes, whatever follows them. -/
theorem pieces_utf8EncodeChar_append (c : Char) (bs : List UInt8) :
    pieces .between (String.utf8EncodeChar c ++ bs) = .char c :: pieces .between bs := by
  have hv : c.val.toNat < 0xD800 ∨ 0xDFFF < c.val.toNat ∧ c.val.toNat < 0x110000 := c.valid
  have hc : Char.ofNat c.val.toNat = c := Char.ofNat_toNat c
  simp only [String.utf8EncodeChar]
  generalize c.val.toNat = v at hv hc ⊢
  have close {n : Nat} (hn : n = v) (rest : List Piece) :
      Piece.char (Char.ofNat n) :: rest = .char c :: rest := by rw [hn, hc]
  by_cases h1 : v ≤ 0x7F
  · rw [if_pos h1, List.singleton_append, pieces_between_cons, start_ofNat_one h1]
    exact close rfl _
  rw [if_neg h1]
  by_cases h2 : v ≤ 0x7FF
  · rw [if_pos h2, List.cons_append, pieces_between_cons,
      start_ofNat_two (by omega) (by omega), List.nil_append, List.singleton_append,
      pieces_inside_zero (by omega) (by omega) (by omega)]
    exact close (by omega) _
  rw [if_neg h2]
  by_cases h3 : v ≤ 0xFFFF
  · rw [if_pos h3, List.cons_append, pieces_between_cons,
      start_ofNat_three (by omega) (by omega), List.nil_append, List.cons_append,
      pieces_inside_succ (by split <;> omega) (by split <;> omega) (by omega),
      List.singleton_append, pieces_inside_zero (by omega) (by omega) (by omega)]
    exact close (by omega) _
  · rw [if_neg h3, List.cons_append, pieces_between_cons,
      start_ofNat_four (by omega) (by omega), List.nil_append, List.cons_append,
      pieces_inside_succ (by split <;> omega) (by split <;> omega) (by omega),
      List.cons_append, pieces_inside_succ (by omega) (by omega) (by omega),
      List.singleton_append, pieces_inside_zero (by omega) (by omega) (by omega)]
    exact close (by omega) _

/-- A text is read back from its bytes, whatever follows them. -/
theorem pieces_encode_append (s : String) (bs : List UInt8) :
    pieces .between (encode s ++ bs) = s.toList.map .char ++ pieces .between bs := by
  unfold encode
  induction s.toList with
  | nil => rfl
  | cons c cs ih =>
    rw [List.flatMap_cons, List.append_assoc, pieces_utf8EncodeChar_append, ih]
    rfl

theorem pieces_encode (s : String) : pieces .between (encode s) = s.toList.map .char := by
  simpa [pieces] using pieces_encode_append s []

@[simp] theorem decode?_encode (s : String) : decode? (encode s) = some s := by
  have h (cs : List Char) : (cs.map Piece.char).mapM Piece.char? = some cs := by
    induction cs with
    | nil => rfl
    | cons c cs ih => simp [List.mapM_cons, Piece.char?, ih]
  simp [decode?, pieces_encode, h]

@[simp] theorem lossy_encode (s : String) : lossy (encode s) = s := by
  have h : Piece.shown ∘ Piece.char = id := rfl
  simp [lossy, pieces_encode, h]

theorem encode_injective {s t : String} (h : encode s = encode t) : s = t := by
  simpa using congrArg lossy h

theorem encode_beq_encode (s t : String) : (encode s == encode t) = (s == t) := by
  apply Bool.eq_iff_iff.mpr
  rw [beq_iff_eq, beq_iff_eq]
  exact ⟨encode_injective, congrArg encode⟩

end ProbeLoader.Utf8
