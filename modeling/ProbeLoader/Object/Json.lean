import ProbeLoader.Text.Utf8
import ProbeLoader.Object.Decimal

/-!
# JSON

Reading a JSON text. The whole text must be one value, with nothing but JSON's four blanks around
it; arrays and objects nest less than 128 deep. Numbers keep all their digits, but one that is too
large for double precision is refused.
-/

namespace ProbeLoader

inductive Json where
  | null
  | bool (b : Bool)
  | number (d : Decimal)
  | string (s : String)
  | array (items : List Json)
  | object (members : List (String × Json))
  deriving Repr, Inhabited

namespace Json

def isBlank (c : Char) : Bool :=
  c == ' ' || c == '\t' || c == '\n' || c == '\r'

def skipBlank (cs : List Char) : List Char := cs.dropWhile isBlank

def hexDigit? (c : Char) : Option Nat :=
  if '0' ≤ c ∧ c ≤ '9' then some (c.toNat - '0'.toNat)
  else if 'a' ≤ c ∧ c ≤ 'f' then some (c.toNat - 'a'.toNat + 10)
  else if 'A' ≤ c ∧ c ≤ 'F' then some (c.toNat - 'A'.toNat + 10)
  else none

def unit? (a b c d : Char) : Option Nat := do
  let a ← hexDigit? a
  let b ← hexDigit? b
  let c ← hexDigit? c
  let d ← hexDigit? d
  return ((a * 16 + b) * 16 + c) * 16 + d

/-- The character that stands behind a backslash. -/
def escaped? : Char → Option Char
  | '"' => some '"'
  | '\\' => some '\\'
  | '/' => some '/'
  | 'b' => some '\x08'
  | 'f' => some '\x0c'
  | 'n' => some '\n'
  | 'r' => some '\r'
  | 't' => some '\t'
  | _ => none

def isHighSurrogate (n : Nat) : Bool := 0xD800 ≤ n && n ≤ 0xDBFF

def isLowSurrogate (n : Nat) : Bool := 0xDC00 ≤ n && n ≤ 0xDFFF

/-- One character of a string, and the rest. Surrogates are escaped in pairs. -/
def stringChar? : List Char → Option (Char × List Char)
  | '\\' :: 'u' :: a :: b :: c :: d :: rest => do
    let n ← unit? a b c d
    if isHighSurrogate n then
      match rest with
      | '\\' :: 'u' :: a :: b :: c :: d :: rest =>
        let m ← unit? a b c d
        if isLowSurrogate m then
          return (Char.ofNat (0x10000 + (n - 0xD800) * 0x400 + (m - 0xDC00)), rest)
        else none
      | _ => none
    else if isLowSurrogate n then none
    else return (Char.ofNat n, rest)
  | '\\' :: c :: rest => (escaped? c).map fun e => (e, rest)
  | c :: rest => if c.toNat < 0x20 then none else some (c, rest)
  | [] => none

/-- The characters of a string up to its closing quote, and what follows it. -/
def stringBody? : (fuel : Nat) → List Char → Option (List Char × List Char)
  | 0, _ => none
  | _, '"' :: rest => some ([], rest)
  | fuel + 1, cs => do
    let (c, rest) ← stringChar? cs
    let (body, rest) ← stringBody? fuel rest
    return (c :: body, rest)

/-- The digits at the front, of which there must be one. -/
def digits? (cs : List Char) : Option (List Char × List Char) :=
  let (digits, rest) := cs.span Char.isDigit
  if digits.isEmpty then none else some (digits, rest)

/-- The whole part of a number; a zero at its front stands alone. -/
def whole? : List Char → Option (List Char × List Char)
  | '0' :: rest =>
    match rest with
    | c :: _ => if c.isDigit then none else some (['0'], rest)
    | [] => some (['0'], rest)
  | cs => digits? cs

def fraction? : List Char → Option (List Char × List Char)
  | '.' :: rest => digits? rest
  | cs => some ([], cs)

/-- An exponent, if there is one; without it the power of ten is zero. -/
def exponent? : List Char → Option (Int × List Char)
  | c :: rest =>
    if c = 'e' ∨ c = 'E' then
      match rest with
      | '-' :: rest => (digits? rest).map fun (ds, rest) => (-Text.ofDigits ds, rest)
      | '+' :: rest => (digits? rest).map fun (ds, rest) => (Text.ofDigits ds, rest)
      | rest => (digits? rest).map fun (ds, rest) => (Text.ofDigits ds, rest)
    else some (0, c :: rest)
  | [] => some (0, [])

/-- A number as it is written, behind its sign. -/
def magnitude? (negative : Bool) (cs : List Char) : Option (Decimal × List Char) := do
  let (whole, cs) ← whole? cs
  let (fraction, cs) ← fraction? cs
  let (exponent, cs) ← exponent? cs
  return (⟨negative, whole, fraction, exponent⟩, cs)

def decimal? : List Char → Option (Decimal × List Char)
  | '-' :: cs => magnitude? true cs
  | cs => magnitude? false cs

def number? (cs : List Char) : Option (Json × List Char) := do
  let (d, rest) ← decimal? cs
  if d.fitsDouble then return (.number d, rest) else none

def scalar? (cs : List Char) : Option (Json × List Char) :=
  if "null".toList.isPrefixOf cs then some (.null, cs.drop 4)
  else if "true".toList.isPrefixOf cs then some (.bool true, cs.drop 4)
  else if "false".toList.isPrefixOf cs then some (.bool false, cs.drop 5)
  else number? cs

def openBrace : Char := '\x7b'

def closeBrace : Char := '\x7d'

mutual

/-- A value at the front, and the rest; `depth` is how deep it may nest. -/
def value? : (fuel depth : Nat) → List Char → Option (Json × List Char)
  | 0, _, _ => none
  | fuel + 1, depth, cs =>
    match skipBlank cs with
    | [] => none
    | c :: rest =>
      if c = '"' then do
        let (s, rest) ← stringBody? (rest.length + 1) rest
        return (.string (String.ofList s), rest)
      else if c = '[' then
        match depth with
        | 0 => none
        | depth + 1 =>
          match skipBlank rest with
          | ']' :: rest => some (.array [], rest)
          | rest => (items? fuel depth rest).map fun (js, rest) => (.array js, rest)
      else if c = openBrace then
        match depth with
        | 0 => none
        | depth + 1 =>
          match skipBlank rest with
          | [] => none
          | d :: rest =>
            if d = closeBrace then some (.object [], rest)
            else (members? fuel depth (d :: rest)).map fun (ms, rest) => (.object ms, rest)
      else scalar? (c :: rest)

def items? : (fuel depth : Nat) → List Char → Option (List Json × List Char)
  | 0, _, _ => none
  | fuel + 1, depth, cs => do
    let (j, rest) ← value? fuel depth cs
    match skipBlank rest with
    | ',' :: rest =>
      let (js, rest) ← items? fuel depth rest
      return (j :: js, rest)
    | ']' :: rest => return ([j], rest)
    | _ => none

def members? : (fuel depth : Nat) → List Char → Option (List (String × Json) × List Char)
  | 0, _, _ => none
  | fuel + 1, depth, cs =>
    match skipBlank cs with
    | '"' :: rest => do
      let (key, rest) ← stringBody? (rest.length + 1) rest
      match skipBlank rest with
      | ':' :: rest =>
        let (j, rest) ← value? fuel depth rest
        match skipBlank rest with
        | [] => none
        | c :: rest =>
          if c = ',' then
            let (ms, rest) ← members? fuel depth rest
            return ((String.ofList key, j) :: ms, rest)
          else if c = closeBrace then return ([(String.ofList key, j)], rest)
          else none
      | _ => none
    | _ => none

end

/-- How deep arrays and objects may nest. -/
def nestingLimit : Nat := 127

def parse? (s : String) : Option Json :=
  let cs := s.toList
  match value? (2 * cs.length + 1) nestingLimit cs with
  | some (j, rest) => if (skipBlank rest).isEmpty then some j else none
  | none => none

/-- The value of a member; of members with one key the last one counts. -/
def member? (key : String) : Json → Option Json
  | .object ms => (ms.reverse.find? fun m => m.1 == key).map (·.2)
  | _ => none

def items : Json → List Json
  | .array js => js
  | _ => []

def string? : Json → Option String
  | .string s => some s
  | _ => none

end Json

end ProbeLoader
