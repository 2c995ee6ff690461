import ProbeLoader.Text.Plain

/-!
# Painted text

What a terminal shows of a text: the characters outside of all escape sequences, each with the
attributes in force where it stands. A control sequence that ends with `m` selects attributes; one
that is empty or zero takes all of them back. An escape is the only character that leaves the text,
so a text without one is shown as it is.
-/

namespace ProbeLoader.Text

/-- The codes of the attributes in force, in the order in which they were selected. -/
abbrev Attributes := List (List Char)

def Attributes.select (attributes : Attributes) (parameters : List Char) : Attributes :=
  (segments (· == ';') parameters).foldl
    (fun set code => if code = [] ∨ code = ['0'] then [] else set ++ [code]) attributes

/-- What a terminal keeps in mind between two characters. -/
structure Pen where
  place : Place
  /-- The parameters so far of the sequence that is being read. -/
  parameters : List Char
  attributes : Attributes
  deriving DecidableEq, Repr

namespace Pen

/-- A pen outside of all sequences. -/
def resting (attributes : Attributes) : Pen := ⟨.outside, [], attributes⟩

def read (p : Pen) (c : Char) : Pen where
  place := p.place.next c
  parameters :=
    if p.place = .parameters ∧ p.place.next c = .parameters then p.parameters ++ [c] else []
  attributes :=
    if p.place = .parameters ∧ c = 'm' then p.attributes.select p.parameters else p.attributes

/-- The characters outside of all sequences, from a pen on, with their attributes. -/
def painted : Pen → List Char → List (Char × Attributes)
  | _, [] => []
  | p, c :: cs =>
    if p.place = .outside ∧ c ≠ '\x1b' then (c, p.attributes) :: painted (p.read c) cs
    else painted (p.read c) cs

end Pen

/-- A text in which all characters have the same attributes. -/
def paint (attributes : Attributes) (s : String) : List (Char × Attributes) :=
  s.toList.map (·, attributes)

/-- A text without its escape sequences. -/
def visible (s : String) : String :=
  String.ofList ((Pen.painted (.resting []) s.toList).map Prod.fst)

@[simp] theorem map_fst_paint (attributes : Attributes) (s : String) :
    (paint attributes s).map Prod.fst = s.toList := by
  simp [paint, Function.comp_def]

namespace Place

theorem next_outside {c : Char} (hc : c ≠ '\x1b') : outside.next c = outside := by
  simp [next, within, hc]

/-- A digit is one of the parameters of a control sequence. -/
theorem next_parameters_of_isDigit {c : Char} (hc : c.isDigit = true) :
    parameters.next c = parameters := by
  have hne {d : Char} (hd : d.isDigit = false) : c ≠ d := by
    rintro rfl
    exact Bool.false_ne_true (hd.symm.trans hc)
  have hblank : parameters.shows c = false := by
    have hseparator : isSeparator c = false := by
      simp [isSeparator, hne (d := ' ') rfl, hne (d := '\t') rfl, hne (d := '\n') rfl,
        hne (d := '\x0c') rfl, hne (d := '\r') rfl]
    simp [shows, isControlBlank, hseparator]
  have hfinal : ¬ '@' ≤ c := by
    have hlarge := (Char.isDigit_iff_toNat.mp hc).2
    intro hle
    have hsmall : '@'.toNat ≤ c.toNat := hle
    exact absurd (Nat.le_trans hsmall hlarge) (by decide)
  simp [next, within, hne (d := '\x1b') rfl, hne (d := '\x18') rfl, hne (d := '\x1a') rfl, hblank,
    hfinal]

end Place

namespace Pen

variable {attributes : Attributes} {text code : List Char}

theorem painted_cons {c : Char} (hc : c ≠ '\x1b') (rest : List Char) :
    painted (resting attributes) (c :: rest) =
      (c, attributes) :: painted (resting attributes) rest := by
  have hread : (resting attributes).read c = resting attributes := by
    simp [read, resting, Place.next_outside hc]
  rw [painted, hread]
  exact if_pos ⟨rfl, hc⟩

/-- A text without an escape is shown with the attributes that were in force before it. -/
theorem painted_append (htext : '\x1b' ∉ text) (rest : List Char) :
    painted (resting attributes) (text ++ rest) =
      text.map (·, attributes) ++ painted (resting attributes) rest := by
  induction text with
  | nil => rfl
  | cons c text ih =>
    have hc : c ≠ '\x1b' := fun heq => htext (heq ▸ List.mem_cons_self)
    rw [List.cons_append, painted_cons hc, ih fun hmem => htext (List.mem_cons_of_mem c hmem)]
    rfl

theorem painted_parameters (hcode : ∀ c ∈ code, c.isDigit = true) (before rest : List Char) :
    painted ⟨.parameters, before, attributes⟩ (code ++ 'm' :: rest) =
      painted (resting (attributes.select (before ++ code))) rest := by
  induction code generalizing before with
  | nil =>
    rw [List.append_nil]
    rfl
  | cons c code ih =>
    have hdigit := hcode c List.mem_cons_self
    have hm : c ≠ 'm' := by
      rintro rfl
      exact absurd hdigit (by decide)
    have hread : (Pen.mk .parameters before attributes).read c =
        ⟨.parameters, before ++ [c], attributes⟩ := by
      simp [read, Place.next_parameters_of_isDigit hdigit, hm]
    have hrest := ih (fun d hd => hcode d (List.mem_cons_of_mem c hd)) (before ++ [c])
    rw [List.append_assoc, List.singleton_append] at hrest
    rw [List.cons_append, painted, hread, ← hrest]
    exact if_neg (by simp)

/-- A sequence that selects attributes is not shown. -/
theorem painted_sequence (hcode : ∀ c ∈ code, c.isDigit = true) (rest : List Char) :
    painted (resting attributes) ('\x1b' :: '[' :: (code ++ 'm' :: rest)) =
      painted (resting (attributes.select code)) rest :=
  painted_parameters hcode [] rest

end Pen

/-- Nothing of an escape sequence is visible. -/
theorem escape_not_mem_visible (s : String) : '\x1b' ∉ (visible s).toList := by
  have hpainted (p : Pen) (cs : List Char) : ∀ shown ∈ p.painted cs, shown.1 ≠ '\x1b' := by
    induction cs generalizing p with
    | nil => exact fun shown hshown => absurd hshown List.not_mem_nil
    | cons c cs ih =>
      intro shown hshown
      rw [Pen.painted] at hshown
      split at hshown
      · rename_i houtside
        rcases List.mem_cons.mp hshown with rfl | hshown
        · exact houtside.2
        · exact ih _ shown hshown
      · exact ih _ shown hshown
  unfold visible
  rw [String.toList_ofList]
  intro hmem
  obtain ⟨shown, hshown, hescape⟩ := List.mem_map.mp hmem
  exact hpainted _ _ shown hshown hescape

end ProbeLoader.Text
