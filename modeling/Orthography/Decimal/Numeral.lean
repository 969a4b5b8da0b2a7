/-
Texts that read as a number.

A number has an optional sign, digits of any script with perhaps a point, and an optional exponent;
single underscores may stand between digits and blanks around the whole. Infinity and
not-a-number are numbers too. A whole number is one without point and exponent.
-/
import Orthography.Decimal.Digits
import Orthography.Unicode.Blank
import Orthography.Unicode.Decimal

set_option autoImplicit false

namespace Orthography.Decimal.Numeral

open Unicode

/-- A character with digits of other scripts and blanks beyond ASCII in their plain form. -/
def plain (c : Char) : Char :=
  if c.toNat < 127 then c
  else if isBlank c then ' '
  else match decimalValue? c with
    | some value => Nat.digitChar value
    | none => '?'

/-- Is the character one of the blanks that may stand around a number? -/
def isMargin (c : Char) : Bool :=
  c = ' ' || c = '\t' || c = '\n' || c = '\r' || c = '\x0b' || c = '\x0c'

/-- Does every underscore stand between two digits? `last` is the character before. -/
def underscoresFit (last : Char) : Text → Bool
  | [] => last != '_'
  | c :: rest =>
    (c != '_' || last.isDigit) && (last != '_' || c.isDigit) && underscoresFit c rest

def unsigned : Text → Text
  | c :: rest => if c = '+' || c = '-' then rest else c :: rest
  | [] => []

/-- Is this an exponent, or nothing? -/
def isExponent : Text → Bool
  | [] => true
  | c :: rest =>
    let digits := unsigned rest
    (c = 'e' || c = 'E') && !digits.isEmpty && digits.all Char.isDigit

/-- Are these digits with perhaps a point and an exponent? -/
def isDigits (t : Text) : Bool :=
  let whole := t.takeWhile Char.isDigit
  match t.drop whole.length with
  | '.' :: rest =>
    let part := rest.takeWhile Char.isDigit
    !(whole.isEmpty && part.isEmpty) && isExponent (rest.drop part.length)
  | rest => !whole.isEmpty && isExponent rest

/-- The names of numbers that have no digits. -/
def names : List Text := ["nan", "inf", "infinity"].map String.toList

/-- Does the text read as a number? -/
def accepts (t : Text) : Bool :=
  let t := Text.trim isMargin (t.map plain)
  let bare := unsigned (t.filter (· != '_'))
  underscoresFit ' ' t && (isDigits bare || names.contains (bare.map Char.toLower))

/-- The whole number that a text reads as. -/
def integer? (t : Text) : Option Int :=
  let t := Text.trim isMargin (t.map plain)
  let digits := (unsigned t).filter (· != '_')
  if underscoresFit ' ' t && !digits.isEmpty && digits.all Char.isDigit &&
      digits.length ≤ maxDigits then
    let magnitude : Int := valueOf 10 digits
    some (if t.head? = some '-' then -magnitude else magnitude)
  else none

end Orthography.Decimal.Numeral
