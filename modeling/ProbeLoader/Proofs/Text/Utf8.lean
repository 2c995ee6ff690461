import ProbeLoader.Text.Utf8.RoundTrip

/-!
# Which bytes are text

The strict reader accepts exactly what writing produces: bytes are read as a text only if they are
the bytes of that text. The ranges that the reader asks for are those in which the bytes of a
character of each length lie, and outside of them it gives the bytes up.
-/

namespace ProbeLoader.Utf8

theorem length_encode (s : String) : (encode s).length = s.utf8ByteSize := by
  have h : (encode s).toByteArray = s.toByteArray := String.utf8Encode_toList
  rw [← String.size_toByteArray, ← h, List.size_toByteArray]

theorem mapM_char?_eq_some_iff {ps : List Piece} {cs : List Char} :
    ps.mapM Piece.char? = some cs ↔ ps = cs.map Piece.char := by
  induction ps generalizing cs with
  | nil => cases cs <;> simp
  | cons p ps ih =>
    cases p with
    | invalid => cases cs <;> simp [List.mapM_cons, Piece.char?]
    | char c =>
      cases cs with
      | nil => simp [List.mapM_cons, Piece.char?, Option.bind_eq_some_iff]
      | cons d cs =>
        simp only [List.mapM_cons, Piece.char?, Option.pure_def, Option.bind_eq_bind,
          Option.bind_some, Option.bind_eq_some_iff, Option.some.injEq, List.cons.injEq, ih,
          List.map_cons, Piece.char.injEq]
        constructor
        · rintro ⟨ds, hps, rfl, rfl⟩
          exact ⟨rfl, hps⟩
        · rintro ⟨rfl, hps⟩
          exact ⟨cs, hps, rfl, rfl⟩

theorem toNat_val_ofNat {n : Nat} (h : n.isValidChar) : (Char.ofNat n).val.toNat = n := by
  unfold Char.ofNat
  rw [dif_pos h]
  rfl

theorem ofNat_eq {n : Nat} {b : UInt8} (h : n = b.toNat) : UInt8.ofNat n = b := by
  rw [h, UInt8.ofNat_toNat]

theorem utf8EncodeChar_one {a : UInt8} (h : a.toNat ≤ 0x7F) :
    String.utf8EncodeChar (Char.ofNat a.toNat) = [a] := by
  have hv := toNat_val_ofNat (n := a.toNat) (Or.inl (by omega))
  simp only [String.utf8EncodeChar, hv, if_pos h, UInt8.ofNat_toNat]

theorem utf8EncodeChar_two {a b : UInt8} (ha : 0xC2 ≤ a.toNat) (ha' : a.toNat ≤ 0xDF)
    (hb : 0x80 ≤ b.toNat) (hb' : b.toNat ≤ 0xBF) :
    String.utf8EncodeChar (Char.ofNat ((a.toNat - 0xC0) * 64 + (b.toNat - 0x80))) = [a, b] := by
  have hv := toNat_val_ofNat (n := (a.toNat - 0xC0) * 64 + (b.toNat - 0x80)) (Or.inl (by omega))
  simp only [String.utf8EncodeChar, hv]
  rw [if_neg (by omega), if_pos (by omega), ofNat_eq (b := a) (by omega),
    ofNat_eq (b := b) (by omega)]

theorem utf8EncodeChar_three {a b c : UInt8} (ha : 0xE0 ≤ a.toNat) (ha' : a.toNat ≤ 0xEF)
    (hb : (if a.toNat = 0xE0 then 0xA0 else 0x80) ≤ b.toNat)
    (hb' : b.toNat ≤ if a.toNat = 0xED then 0x9F else 0xBF)
    (hc : 0x80 ≤ c.toNat) (hc' : c.toNat ≤ 0xBF) :
    String.utf8EncodeChar (Char.ofNat
      (((a.toNat - 0xE0) * 64 + (b.toNat - 0x80)) * 64 + (c.toNat - 0x80))) = [a, b, c] := by
  have hb₀ : 0x80 ≤ b.toNat ∧ b.toNat ≤ 0xBF := by split at hb <;> split at hb' <;> omega
  have hlow : 0x20 ≤ (a.toNat - 0xE0) * 64 + (b.toNat - 0x80) := by split at hb <;> omega
  have hsur : (a.toNat - 0xE0) * 64 + (b.toNat - 0x80) < 0x360 ∨
      0x380 ≤ (a.toNat - 0xE0) * 64 + (b.toNat - 0x80) := by split at hb' <;> omega
  have hv := toNat_val_ofNat
    (n := ((a.toNat - 0xE0) * 64 + (b.toNat - 0x80)) * 64 + (c.toNat - 0x80))
    (show Nat.isValidChar _ by unfold Nat.isValidChar; omega)
  simp only [String.utf8EncodeChar, hv]
  rw [if_neg (by omega), if_neg (by omega), if_pos (by omega), ofNat_eq (b := a) (by omega),
    ofNat_eq (b := b) (by omega), ofNat_eq (b := c) (by omega)]

theorem utf8EncodeChar_four {a b c d : UInt8} (ha : 0xF0 ≤ a.toNat) (ha' : a.toNat ≤ 0xF4)
    (hb : (if a.toNat = 0xF0 then 0x90 else 0x80) ≤ b.toNat)
    (hb' : b.toNat ≤ if a.toNat = 0xF4 then 0x8F else 0xBF)
    (hc : 0x80 ≤ c.toNat) (hc' : c.toNat ≤ 0xBF) (hd : 0x80 ≤ d.toNat) (hd' : d.toNat ≤ 0xBF) :
    String.utf8EncodeChar (Char.ofNat
      ((((a.toNat - 0xF0) * 64 + (b.toNat - 0x80)) * 64 + (c.toNat - 0x80)) * 64 +
        (d.toNat - 0x80))) = [a, b, c, d] := by
  have hb₀ : 0x80 ≤ b.toNat ∧ b.toNat ≤ 0xBF := by split at hb <;> split at hb' <;> omega
  have hlow : 0x10 ≤ (a.toNat - 0xF0) * 64 + (b.toNat - 0x80) := by split at hb <;> omega
  have hhigh : (a.toNat - 0xF0) * 64 + (b.toNat - 0x80) < 0x110 := by split at hb' <;> omega
  have hv := toNat_val_ofNat
    (n := (((a.toNat - 0xF0) * 64 + (b.toNat - 0x80)) * 64 + (c.toNat - 0x80)) * 64 +
      (d.toNat - 0x80))
    (show Nat.isValidChar _ by unfold Nat.isValidChar; omega)
  simp only [String.utf8EncodeChar, hv]
  rw [if_neg (by omega), if_neg (by omega), if_neg (by omega), ofNat_eq (b := a) (by omega),
    ofNat_eq (b := b) (by omega), ofNat_eq (b := c) (by omega), ofNat_eq (b := d) (by omega)]

theorem exists_of_inside_zero {bits low high : Nat} {bs : List UInt8} {cs : List Char}
    (h : pieces (.inside bits 0 low high) bs = cs.map .char) :
    ∃ b rest ds, bs = b :: rest ∧ (low ≤ b.toNat ∧ b.toNat ≤ high) ∧
      cs = Char.ofNat (bits * 64 + (b.toNat - 0x80)) :: ds ∧
      pieces .between rest = ds.map .char := by
  cases bs with
  | nil => cases cs <;> simp [pieces] at h
  | cons b rest =>
    by_cases hb : low ≤ b.toNat ∧ b.toNat ≤ high
    · cases cs with
      | nil => simp [pieces, step, hb] at h
      | cons c cs =>
        simp only [pieces, step, if_pos hb, List.singleton_append, List.map_cons, List.cons.injEq,
          Piece.char.injEq] at h
        exact ⟨b, rest, cs, rfl, hb, by rw [h.1], h.2⟩
    · cases cs <;> simp [pieces, step, hb] at h

theorem exists_of_inside_succ {bits more low high : Nat} {bs : List UInt8} {cs : List Char}
    (h : pieces (.inside bits (more + 1) low high) bs = cs.map .char) :
    ∃ b rest, bs = b :: rest ∧ (low ≤ b.toNat ∧ b.toNat ≤ high) ∧
      pieces (.inside (bits * 64 + (b.toNat - 0x80)) more 0x80 0xBF) rest = cs.map .char := by
  cases bs with
  | nil => cases cs <;> simp [pieces] at h
  | cons b rest =>
    by_cases hb : low ≤ b.toNat ∧ b.toNat ≤ high
    · simp only [pieces, step, if_pos hb, List.nil_append] at h
      exact ⟨b, rest, rfl, hb, h⟩
    · cases cs <;> simp [pieces, step, hb] at h

/-- The first character that bytes are read as stands in front with its own bytes. -/
theorem exists_of_pieces_cons {a : UInt8} {bs : List UInt8} {cs : List Char}
    (h : pieces .between (a :: bs) = cs.map .char) :
    ∃ c ds rest, cs = c :: ds ∧ a :: bs = String.utf8EncodeChar c ++ rest ∧
      pieces .between rest = ds.map .char := by
  rw [pieces_between_cons] at h
  unfold start at h
  dsimp only at h
  by_cases h1 : a.toNat ≤ 0x7F
  · rw [if_pos h1] at h
    cases cs with
    | nil => exact nomatch h
    | cons c cs =>
      obtain ⟨hc, htail⟩ := List.cons.inj h
      refine ⟨c, cs, bs, rfl, ?_, htail⟩
      rw [← Piece.char.inj hc, utf8EncodeChar_one h1]
      rfl
  rw [if_neg h1] at h
  by_cases h2 : a.toNat ≤ 0xC1
  · rw [if_pos h2] at h
    cases cs <;> exact nomatch h
  rw [if_neg h2] at h
  by_cases h3 : a.toNat ≤ 0xDF
  · rw [if_pos h3] at h
    obtain ⟨b, rest, ds, rfl, hb, rfl, hrest⟩ := exists_of_inside_zero h
    refine ⟨_, ds, rest, rfl, ?_, hrest⟩
    rw [utf8EncodeChar_two (by omega) h3 hb.1 hb.2]
    rfl
  rw [if_neg h3] at h
  by_cases h4 : a.toNat ≤ 0xEF
  · rw [if_pos h4] at h
    obtain ⟨b, _, rfl, hb, h⟩ := exists_of_inside_succ h
    obtain ⟨c, rest, ds, rfl, hc, rfl, hrest⟩ := exists_of_inside_zero h
    refine ⟨_, ds, rest, rfl, ?_, hrest⟩
    rw [utf8EncodeChar_three (by omega) h4 hb.1 hb.2 hc.1 hc.2]
    rfl
  rw [if_neg h4] at h
  by_cases h5 : a.toNat ≤ 0xF4
  · rw [if_pos h5] at h
    obtain ⟨b, _, rfl, hb, h⟩ := exists_of_inside_succ h
    obtain ⟨c, _, rfl, hc, h⟩ := exists_of_inside_succ h
    obtain ⟨d, rest, ds, rfl, hd, rfl, hrest⟩ := exists_of_inside_zero h
    refine ⟨_, ds, rest, rfl, ?_, hrest⟩
    rw [utf8EncodeChar_four (by omega) h5 hb.1 hb.2 hc.1 hc.2 hd.1 hd.2]
    rfl
  · rw [if_neg h5] at h
    cases cs <;> exact nomatch h

theorem eq_flatMap_of_pieces {bs : List UInt8} {cs : List Char}
    (h : pieces .between bs = cs.map .char) : bs = cs.flatMap String.utf8EncodeChar := by
  induction cs generalizing bs with
  | nil =>
    cases bs with
    | nil => rfl
    | cons a bs =>
      obtain ⟨c, ds, _, hnil, _⟩ := exists_of_pieces_cons h
      exact nomatch hnil
  | cons c cs ih =>
    cases bs with
    | nil => exact nomatch h
    | cons a bs =>
      obtain ⟨c', ds, rest, heq, hbs, hrest⟩ := exists_of_pieces_cons h
      obtain ⟨rfl, rfl⟩ := List.cons.inj heq
      rw [hbs, ih hrest, List.flatMap_cons]

/-- The bytes of a text, and no others, are read as that text. -/
theorem decode?_eq_some_iff {bs : List UInt8} {s : String} : decode? bs = some s ↔ bs = encode s := by
  constructor
  · intro h
    obtain ⟨cs, hcs, rfl⟩ := Option.map_eq_some_iff.mp h
    rw [encode, String.toList_ofList]
    exact eq_flatMap_of_pieces (mapM_char?_eq_some_iff.mp hcs)
  · rintro rfl
    exact decode?_encode s

theorem decode?_eq_none_iff {bs : List UInt8} : decode? bs = none ↔ ∀ s, bs ≠ encode s := by
  rw [Option.eq_none_iff_forall_ne_some]
  simp only [ne_eq, decode?_eq_some_iff]

/-- A character beyond the first 128 is written with bytes beyond the first 128 only. -/
theorem le_of_mem_utf8EncodeChar {c : Char} (hc : 0x7F < c.toNat) {b : UInt8}
    (hb : b ∈ String.utf8EncodeChar c) : 0x80 ≤ b.toNat := by
  change 0x7F < c.val.toNat at hc
  simp only [String.utf8EncodeChar] at hb
  rw [if_neg (by omega)] at hb
  split at hb
  · simp only [List.mem_cons, List.not_mem_nil, or_false] at hb
    rcases hb with rfl | rfl <;> simp only [UInt8.toNat_ofNat'] <;> omega
  · split at hb
    · simp only [List.mem_cons, List.not_mem_nil, or_false] at hb
      rcases hb with rfl | rfl | rfl <;> simp only [UInt8.toNat_ofNat'] <;> omega
    · simp only [List.mem_cons, List.not_mem_nil, or_false] at hb
      rcases hb with rfl | rfl | rfl | rfl <;> simp only [UInt8.toNat_ofNat'] <;> omega

/-- One of the first 128 bytes is the byte of the character of that number only. -/
theorem eq_of_mem_utf8EncodeChar {c d : Char} (hc : c.toNat < 0x80)
    (hmem : UInt8.ofNat c.toNat ∈ String.utf8EncodeChar d) : d = c := by
  have hbyte : (UInt8.ofNat c.toNat).toNat = c.toNat := toNat_ofNat_of_lt (by omega)
  have hd : d.toNat ≤ 0x7F := by
    apply Nat.le_of_not_lt
    intro hlarge
    have hle := le_of_mem_utf8EncodeChar hlarge hmem
    omega
  have hval : d.val.toNat ≤ 0x7F := hd
  simp only [String.utf8EncodeChar, if_pos hval, List.mem_singleton] at hmem
  have heq : d.toNat = c.toNat := by
    rw [← hbyte, hmem]
    exact (toNat_ofNat_of_lt (by omega)).symm
  exact Char.toNat_inj.mp heq

theorem utf8EncodeChar_of_lt {c : Char} (hc : c.toNat < 0x80) :
    String.utf8EncodeChar c = [UInt8.ofNat c.toNat] := by
  have hval : c.val.toNat ≤ 0x7F := Nat.le_of_lt_succ hc
  simp only [String.utf8EncodeChar, if_pos hval]
  rfl

theorem mem_of_mem_encode {s : String} {c : Char} (hc : c.toNat < 0x80)
    (hmem : UInt8.ofNat c.toNat ∈ encode s) : c ∈ s.toList := by
  obtain ⟨d, hd, hb⟩ := List.mem_flatMap.mp hmem
  rwa [← eq_of_mem_utf8EncodeChar hc hb]

/-- A text whose bytes end with one of the first 128 ends with the character of that number. -/
theorem exists_of_encode_eq_concat {t : String} {bs : List UInt8} {c : Char} (hc : c.toNat < 0x80)
    (ht : encode t = bs ++ [UInt8.ofNat c.toNat]) :
    ∃ s, t.toList = s.toList ++ [c] ∧ bs = encode s := by
  unfold encode at ht
  rcases List.eq_nil_or_concat t.toList with hnil | ⟨cs, d, hcs⟩
  · rw [hnil, List.flatMap_nil] at ht
    exact absurd ht.symm (List.append_ne_nil_of_right_ne_nil bs (List.cons_ne_nil _ _))
  · rw [List.concat_eq_append] at hcs
    rw [hcs, List.flatMap_append, List.flatMap_singleton] at ht
    have hlast := congrArg List.getLast? ht
    rw [List.getLast?_append, List.getLast?_concat, Option.or_eq_some_iff] at hlast
    have hmem : UInt8.ofNat c.toNat ∈ String.utf8EncodeChar d := by
      rcases hlast with hlast | ⟨hnil, _⟩
      · exact List.mem_of_getLast? hlast
      · exact absurd (List.getLast?_eq_none_iff.mp hnil) String.utf8EncodeChar_ne_nil
    obtain rfl := eq_of_mem_utf8EncodeChar hc hmem
    rw [utf8EncodeChar_of_lt hc] at ht
    refine ⟨String.ofList cs, ?_, ?_⟩
    · rw [hcs, String.toList_ofList]
    · rw [encode, String.toList_ofList]
      exact (List.append_inj_left' ht rfl).symm

end ProbeLoader.Utf8
