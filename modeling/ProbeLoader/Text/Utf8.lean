import ProbeLoader.Text.Split

/-!
# UTF-8

Reading bytes as characters, one byte at a time. A reader is either between characters or inside
one, knowing the bits gathered so far, how many bytes are still to come and the range the next
byte must lie in; the ranges exclude overlong forms, surrogates and values above U+10FFFF. What
no character can begin with is given up as one invalid piece, as long as possible, and the byte
that ended it is read afresh. `decode?` accepts the byte strings without an invalid piece and
`lossy` writes U+FFFD for each.
-/

namespace ProbeLoader.Utf8

/-- What a stretch of bytes was read as. -/
inductive Piece where
  | char (c : Char)
  | invalid
  deriving DecidableEq, Repr

/-- Where a reader stands: between characters, or inside one with `more + 1` bytes to come, the
next of them from `low` to `high`. -/
inductive State where
  | between
  | inside (bits more low high : Nat)
  deriving DecidableEq, Repr

/-- Reading a byte between characters. -/
def start (b : UInt8) : List Piece × State :=
  let n := b.toNat
  if n ≤ 0x7F then ([.char (Char.ofNat n)], .between)
  else if n ≤ 0xC1 then ([.invalid], .between)
  else if n ≤ 0xDF then ([], .inside (n - 0xC0) 0 0x80 0xBF)
  else if n ≤ 0xEF then
    ([], .inside (n - 0xE0) 1 (if n = 0xE0 then 0xA0 else 0x80) (if n = 0xED then 0x9F else 0xBF))
  else if n ≤ 0xF4 then
    ([], .inside (n - 0xF0) 2 (if n = 0xF0 then 0x90 else 0x80) (if n = 0xF4 then 0x8F else 0xBF))
  else ([.invalid], .between)

/-- Reading one byte: the pieces it completes and where the reader stands after it. -/
def step : State → UInt8 → List Piece × State
  | .between, b => start b
  | .inside bits more low high, b =>
    if low ≤ b.toNat ∧ b.toNat ≤ high then
      let gathered := bits * 64 + (b.toNat - 0x80)
      match more with
      | 0 => ([.char (Char.ofNat gathered)], .between)
      | more + 1 => ([], .inside gathered more 0x80 0xBF)
    else (.invalid :: (start b).1, (start b).2)

/-- The pieces of a byte string; one that ends inside a character ends with an invalid piece. -/
def pieces : State → List UInt8 → List Piece
  | .between, [] => []
  | .inside .., [] => [.invalid]
  | s, b :: bs => (step s b).1 ++ pieces (step s b).2 bs

/-- The character of a piece, if it has one. -/
def Piece.char? : Piece → Option Char
  | .char c => some c
  | .invalid => none

/-- The character that stands for a piece in a text for the reader. -/
def Piece.shown : Piece → Char
  | .char c => c
  | .invalid => '\uFFFD'

/-- The text of a byte string, if it is one. -/
def decode? (bs : List UInt8) : Option String :=
  ((pieces .between bs).mapM Piece.char?).map String.ofList

/-- The text of a byte string with U+FFFD for each invalid piece. -/
def lossy (bs : List UInt8) : String :=
  String.ofList ((pieces .between bs).map Piece.shown)

/-- The bytes of a text. -/
def encode (s : String) : List UInt8 :=
  s.toList.flatMap String.utf8EncodeChar

@[simp] theorem encode_append (s t : String) : encode (s ++ t) = encode s ++ encode t := by
  simp [encode]

end ProbeLoader.Utf8
