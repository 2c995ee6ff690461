import ProbeLoader.Text.Blank

/-!
# Plain text

What is left of a text when everything that only a terminal acts on is taken out: control
characters other than the blanks among them, and escape sequences. A sequence that does not end
takes the rest of the text with it.
-/

namespace ProbeLoader.Text

/-- Where the next character of a text stands among its escape sequences. -/
inductive Place where
  | outside
  /-- Right behind an escape character, which says nothing yet about the kind of the sequence. -/
  | opened
  /-- Behind an intermediate character; the first character that is none ends the sequence. -/
  | intermediate
  /-- Among the parameters of a control sequence, which ends with a letter or the like. -/
  | parameters
  /-- In a command to the operating system, which a bell ends. -/
  | command
  /-- At the beginning of a device control string, before its parameters. -/
  | deviceHeader
  | deviceParameters
  /-- Behind an intermediate character in the header of a device control string. -/
  | deviceIntermediate
  /-- In a string that is not for the screen, which the string terminator ends. -/
  | deviceString
  deriving DecidableEq, Repr

def isControlBlank (c : Char) : Bool :=
  isSeparator c && c != ' '

/-- Whether a character belongs to the text outside all sequences. -/
def isPlain (c : Char) : Bool :=
  isControlBlank c || (' ' ≤ c && c != '\x7f')

/-- The byte that ends a string. -/
def stringTerminator : UInt8 := 0x9C

/-- Whether a character ends a string: the terminator counts wherever it stands in the bytes of
the text, and the bytes left of a character that it cuts are no text. -/
def terminatesString (c : Char) : Bool :=
  (String.utf8EncodeChar c).contains stringTerminator

namespace Place

/-- Whether a character that stands here belongs to the text. A blank within a sequence does,
unless the sequence carries a text of its own. -/
def shows : Place → Char → Bool
  | outside, c => isPlain c
  | opened, c | intermediate, c | parameters, c => isControlBlank c
  | command, _ | deviceHeader, _ | deviceParameters, _ | deviceIntermediate, _
  | deviceString, _ => false

/-- The kind of sequence that the character behind an escape opens. Most characters are a
sequence by themselves. -/
def ofSecond (c : Char) : Place :=
  if c = '[' then parameters
  else if c = ']' then command
  else if c = 'P' then deviceHeader
  else if c = 'X' ∨ c = '^' ∨ c = '_' then deviceString
  else if ' ' ≤ c ∧ c ≤ '/' then intermediate
  else if '0' ≤ c ∧ c ≤ '~' then outside
  else opened

/-- The place behind a character that neither begins nor cancels a sequence. The header of a device
control string is over with a letter or the like, or where it breaks the order of its parts. -/
def within : Place → Char → Place
  | outside, _ => outside
  | opened, c => ofSecond c
  | intermediate, c => if '0' ≤ c ∧ c ≤ '~' then outside else intermediate
  | parameters, c => if '@' ≤ c ∧ c ≤ '~' then outside else parameters
  | command, c => if c = '\x07' then outside else command
  | deviceHeader, c =>
    if ' ' ≤ c ∧ c ≤ '/' then deviceIntermediate
    else if '0' ≤ c ∧ c ≤ '?' then deviceParameters
    else if '@' ≤ c ∧ c ≤ '~' then deviceString
    else deviceHeader
  | deviceParameters, c =>
    if ' ' ≤ c ∧ c ≤ '/' then deviceIntermediate
    else if '<' ≤ c ∧ c ≤ '~' then deviceString
    else deviceParameters
  | deviceIntermediate, c => if '0' ≤ c ∧ c ≤ '~' then deviceString else deviceIntermediate
  | deviceString, c => if terminatesString c then outside else deviceString

/-- The place behind a character. An escape begins a sequence wherever it stands; a cancelling
character ends one, and so does every character that is shown. -/
def next (p : Place) (c : Char) : Place :=
  if c = '\x1b' then opened
  else if c = '\x18' ∨ c = '\x1a' ∨ p.shows c then outside
  else p.within c

end Place

/-- The characters that belong to the text, from a place on. -/
def shown : Place → List Char → List Char
  | _, [] => []
  | p, c :: cs => if p.shows c then c :: shown (p.next c) cs else shown (p.next c) cs

def plain (s : String) : String :=
  String.ofList (shown .outside s.toList)

end ProbeLoader.Text
