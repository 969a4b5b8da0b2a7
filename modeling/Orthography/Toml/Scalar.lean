/-
Reading the parts of a TOML document that hold no other parts: blanks, comments, strings, keys,
numbers, dates and times.
-/
import Orthography.Toml.Fault
import Orthography.Toml.Value

set_option autoImplicit false

namespace Orthography.Toml

/-! ## Blanks and comments -/

def isSpace (c : Char) : Bool := c = ' ' || c = '\t'

/-- Blanks and line ends. -/
def isSpaceOrLineEnd (c : Char) : Bool := isSpace c || c = '\n'

def skipSpace (t : Text) : Text := t.dropWhile isSpace

/-- Control characters other than the tab. -/
def isControl (c : Char) : Bool := (c.toNat < 32 || c.toNat = 127) && c != '\t'

/-- Control characters other than the tab and the line feed. -/
def isControlInBlock (c : Char) : Bool := isControl c && c != '\n'

/-- Behind a comment, if there is one. -/
def skipComment (t : Text) : Except Fault Text :=
  match t with
  | '#' :: rest =>
    let line := rest.takeWhile (· != '\n')
    match rest.dropWhile fun c => !isControl c with
    | c :: bad =>
      if c = '\n' then .ok (rest.drop line.length) else fault (.invalidCharacter c) (c :: bad)
    | [] => .ok (rest.drop line.length)
  | _ => .ok t

/-- Behind blanks, line ends and comments, in at most `fuel` rounds. -/
def skipFiller (fuel : Nat) (t : Text) : Except Fault Text := do
  match fuel with
  | 0 => return t
  | fuel + 1 =>
    let next ← skipComment (t.dropWhile isSpaceOrLineEnd)
    if next.length = t.length then return t else skipFiller fuel next

/-! ## Literal strings -/

/-- The place of a mark in a text. -/
def find? (mark : Text) : Text → Option Nat
  | [] => if mark.isEmpty then some 0 else none
  | c :: rest => if mark.isPrefixOf (c :: rest) then some 0 else (find? mark rest).map (· + 1)

/-- A literal text up to quotes, which are passed. -/
def literalBody (quotes : Text) (bad : Char → Bool) (t : Text) : Except Fault (Text × Text) :=
  match find? quotes t with
  | none => fault (.expectedQuote quotes) []
  | some n =>
    match (t.take n).find? bad with
    | some c => fault (.invalidCharacter c) (t.dropWhile fun c => !bad c)
    | none => .ok (t.take n, t.drop (n + quotes.length))

/-! ## Basic strings -/

/-- The character of an escape of one letter. -/
def shortEscape? (c : Char) : Option Char :=
  match c with
  | 'b' => some '\x08'
  | 't' => some '\t'
  | 'n' => some '\n'
  | 'f' => some '\x0c'
  | 'r' => some '\r'
  | '"' => some '"'
  | '\\' => some '\\'
  | _ => none

/-- The character of an escape of `width` hexadecimal digits. -/
def hexEscape (width : Nat) (t : Text) : Except Fault (Text × Text) :=
  let digits := t.take width
  if digits.length = width ∧ digits.all Text.isHexDigit then
    let n := Decimal.valueOf 16 digits
    if n ≤ 0xD7FF ∨ (0xE000 ≤ n ∧ n ≤ 0x10FFFF) then .ok ([Char.ofNat n], t.drop width)
    else fault .notScalar (t.drop width)
  else fault .invalidHex t

/-- An escape, its backslash being passed already. In a string of several lines a backslash at the
end of a line takes away the line end and all blanks that follow. -/
def readEscape (block : Bool) (t : Text) : Except Fault (Text × Text) :=
  match t with
  | [] => fault .strayBackslash []
  | c :: rest =>
    if block && c = '\n' then .ok ([], rest.dropWhile isSpaceOrLineEnd)
    else if block && isSpace c then
      match skipSpace rest with
      | [] => .ok ([], [])
      | d :: more =>
        if d = '\n' then .ok ([], more.dropWhile isSpaceOrLineEnd)
        else fault .strayBackslash (d :: more)
    else if c = 'u' then hexEscape 4 rest
    else if c = 'U' then hexEscape 8 rest
    else match shortEscape? c with
      | some e => .ok ([e], rest)
      | none => fault .strayBackslash rest

/-- A basic text up to its closing quotes, which are passed; `fuel` bounds the characters read. -/
def basicBody (block : Bool) : Nat → Text → Except Fault (Text × Text)
  | 0, t => fault .unterminated t
  | fuel + 1, t =>
    match t with
    | [] => fault .unterminated []
    | c :: rest =>
      if c = '"' && !block then .ok ([], rest)
      else if c = '"' && "\"\"".toList.isPrefixOf rest then .ok ([], rest.drop 2)
      else if c = '\\' then do
        let (escaped, rest) ← readEscape block rest
        let (more, rest) ← basicBody block fuel rest
        return (escaped ++ more, rest)
      else if (if block then isControlInBlock c else isControl c) then
        fault (.illegalCharacter c) (c :: rest)
      else do
        let (more, rest) ← basicBody block fuel rest
        return (c :: more, rest)

/-- Up to two quotes more that belong to a string of several lines. -/
def moreQuotes (quote : Char) (body : Text) (t : Text) : Text × Text :=
  let n := min 2 (t.takeWhile (· = quote)).length
  (body ++ t.take n, t.drop n)

/-- A string of any of the four kinds, if one begins here. -/
def readString? (t : Text) : Option (Except Fault (Text × Text)) :=
  let behindLineEnd (t : Text) : Text := if t.head? = some '\n' then t.drop 1 else t
  if "\"\"\"".toList.isPrefixOf t then some do
    let (body, rest) ← basicBody true (t.length + 1) (behindLineEnd (t.drop 3))
    return moreQuotes '"' body rest
  else if "'''".toList.isPrefixOf t then some do
    let (body, rest) ← literalBody "'''".toList isControlInBlock (behindLineEnd (t.drop 3))
    return moreQuotes '\'' body rest
  else match t with
    | '"' :: rest => some (basicBody false (t.length + 1) rest)
    | '\'' :: rest => some (literalBody ['\''] isControl rest)
    | _ => none

/-! ## Keys -/

/-- Characters of a bare part of a key. -/
def isBareKey (c : Char) : Bool := c.isAlphanum || c = '-' || c = '_'

def readKeyPart (t : Text) : Except Fault (Text × Text) :=
  match t with
  | [] => fault .invalidKey []
  | c :: rest =>
    if isBareKey c then .ok (t.takeWhile isBareKey, t.dropWhile isBareKey)
    else if c = '\'' then literalBody ['\''] isControl rest
    else if c = '"' then basicBody false (t.length + 1) rest
    else fault .invalidKey t

/-- A key of parts between points, and behind the blanks that follow it. -/
def readKeyFrom : Nat → Text → Except Fault (Key × Text)
  | 0, t => fault .invalidKey t
  | fuel + 1, t => do
    let (part, rest) ← readKeyPart t
    match skipSpace rest with
    | '.' :: more => do
      let (parts, rest) ← readKeyFrom fuel (skipSpace more)
      return (part :: parts, rest)
    | rest => return ([part], rest)

def readKey (t : Text) : Except Fault (Key × Text) := readKeyFrom (t.length + 1) t

/-! ## Dates and times -/

def fixedNumber? (width low high : Nat) (t : Text) : Option (Nat × Text) :=
  let digits := t.take width
  let n := Decimal.valueOf 10 digits
  if digits.length = width ∧ digits.all Char.isDigit ∧ low ≤ n ∧ n ≤ high then
    some (n, t.drop width)
  else none

def behind? (c : Char) (t : Text) : Option Text :=
  match t with
  | d :: rest => if d = c then some rest else none
  | [] => none

/-- A day, whether or not the calendar has it. -/
def date? (t : Text) : Option (Date × Text) := do
  let (year, t) ← fixedNumber? 4 0 9999 t
  let t ← behind? '-' t
  let (month, t) ← fixedNumber? 2 1 12 t
  let t ← behind? '-' t
  let (day, t) ← fixedNumber? 2 1 31 t
  return (⟨year, month, day⟩, t)

/-- A point and digits behind it, as millionths; digits beyond the sixth are dropped. -/
def fraction (t : Text) : Nat × Text :=
  match t with
  | '.' :: rest =>
    let digits := rest.takeWhile Char.isDigit
    if digits.isEmpty then (0, t)
    else (Decimal.valueOf 10 ((digits ++ "000000".toList).take 6), rest.drop digits.length)
  | _ => (0, t)

def time? (t : Text) : Option (Time × Text) := do
  let (hour, t) ← fixedNumber? 2 0 23 t
  let t ← behind? ':' t
  let (minute, t) ← fixedNumber? 2 0 59 t
  let t ← behind? ':' t
  let (second, t) ← fixedNumber? 2 0 59 t
  let (micro, t) := fraction t
  return (⟨hour, minute, second, micro⟩, t)

def offset? (t : Text) : Option (Int × Text) :=
  match t with
  | c :: rest =>
    if c = 'Z' || c = 'z' then some (0, rest)
    else if c = '+' || c = '-' then do
      let (hour, t) ← fixedNumber? 2 0 23 rest
      let t ← behind? ':' t
      let (minute, t) ← fixedNumber? 2 0 59 t
      let minutes : Int := hour * 60 + minute
      return (if c = '-' then -minutes else minutes, t)
    else none
  | [] => none

/-- A day, perhaps with a time behind it. -/
def dateTime? (t : Text) : Option (Except Fault (Value × Text)) := do
  let (day, rest) ← date? t
  let withTime := do
    let c ← rest.head?
    if c = 'T' || c = 't' || c = ' ' then time? (rest.drop 1) else none
  let (value, rest) : Value × Text :=
    match withTime with
    | none => (.date day, rest)
    | some (time, rest) =>
      match offset? rest with
      | some (minutes, rest) => (.dateTime day time (some minutes), rest)
      | none => (.dateTime day time none, rest)
  return if day.exists then .ok (value, rest) else fault .invalidDate t

/-! ## Numbers -/

/-- The length of digits with single underscores between them. -/
def digitsLength (digit : Char → Bool) : Text → Nat
  | [] => 0
  | [c] => if digit c then 1 else 0
  | c :: d :: rest =>
    if digit c then 1 + digitsLength digit (d :: rest)
    else if c = '_' && digit d then 2 + digitsLength digit rest
    else 0

/-- The length of digits that begin with a digit; zero if there is none. -/
def runLength (digit : Char → Bool) (t : Text) : Nat :=
  if t.head?.any digit then digitsLength digit t else 0

/-- A whole number with a mark for its radix. -/
def radix? (t : Text) : Option (Int × Text) :=
  let read (base : Nat) (digit : Char → Bool) (t : Text) : Option (Int × Text) :=
    let n := runLength digit t
    if n = 0 then none else some ((Decimal.valueOf base (t.take n) : Int), t.drop n)
  match t with
  | '0' :: 'x' :: rest => read 16 Text.isHexDigit rest
  | '0' :: 'b' :: rest => read 2 (fun c => c = '0' || c = '1') rest
  | '0' :: 'o' :: rest => read 8 (fun c => '0' ≤ c && c ≤ '7') rest
  | _ => none

def signLength (t : Text) : Nat := if t.head?.any fun c => c = '+' || c = '-' then 1 else 0

/-- The length of the digits of a whole number; one that begins with zero has no others. -/
def wholeLength (t : Text) : Nat :=
  if t.head? = some '0' then 1 else runLength Char.isDigit t

def fractionLength (t : Text) : Nat :=
  match t with
  | '.' :: rest => if runLength Char.isDigit rest = 0 then 0 else 1 + runLength Char.isDigit rest
  | _ => 0

def exponentLength (t : Text) : Nat :=
  match t with
  | c :: rest =>
    let n := runLength Char.isDigit (rest.drop (signLength rest))
    if (c = 'e' || c = 'E') && n != 0 then 1 + signLength rest + n else 0
  | [] => 0

/-- The value of a whole number with its sign. -/
def signedValue (t : Text) : Int :=
  let n : Int := Decimal.valueOf 10 t
  if t.head? = some '-' then -n else n

def digitCount (t : Text) : Nat := (t.filter Char.isDigit).length

def decimal? (t : Text) : Option (Except Fault (Value × Text)) :=
  let sign := signLength t
  let whole := wholeLength (t.drop sign)
  if whole = 0 then none
  else
    let n := sign + whole
    let fraction := fractionLength (t.drop n)
    let exponent := exponentLength (t.drop (n + fraction))
    let rest := t.drop (n + fraction + exponent)
    if fraction = 0 ∧ exponent = 0 then
      let digits := digitCount (t.take n)
      if Decimal.maxDigits < digits then some (fault (.tooManyDigits digits) t)
      else some (.ok (.integer (signedValue (t.take n)), rest))
    else
      let mantissa := (t.take (n + fraction)).drop sign
      let places := digitCount ((t.drop n).take fraction)
      let scale := signedValue ((t.drop (n + fraction + 1)).take (exponent - 1))
      let x := Decimal.Binary64.ofDecimal (t.head? = some '-') (Decimal.valueOf 10 mantissa)
        (scale - places)
      some (.ok (.float x, rest))

/-- Infinity or no number. -/
def special? (t : Text) : Option (Value × Text) :=
  let sign := signLength t
  let name := (t.drop sign).take 3
  if name = "inf".toList then
    some (.float (.infinite (t.head? = some '-')), t.drop (sign + 3))
  else if name = "nan".toList then some (.float .nan, t.drop (sign + 3))
  else none

def boolean? (t : Text) : Option (Value × Text) :=
  if "true".toList.isPrefixOf t then some (.boolean true, t.drop 4)
  else if "false".toList.isPrefixOf t then some (.boolean false, t.drop 5)
  else none

/-- A value that holds no other values. -/
def readScalar (t : Text) : Except Fault (Value × Text) :=
  match readString? t with
  | some r => r.map fun (s, rest) => (.text s, rest)
  | none =>
    match boolean? t with
    | some r => .ok r
    | none =>
      match dateTime? t with
      | some r => r
      | none =>
        match time? t with
        | some (time, rest) => .ok (.time time, rest)
        | none =>
          match radix? t with
          | some (n, rest) => .ok (.integer n, rest)
          | none =>
            match decimal? t with
            | some r => r
            | none =>
              match special? t with
              | some r => .ok r
              | none => fault .invalidValue t

end Orthography.Toml
