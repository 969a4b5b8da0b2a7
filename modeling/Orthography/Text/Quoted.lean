/-
Quoted text, as messages show it.

A text stands between single quotes, or between double quotes if it holds a single quote and no
double one. A backslash and the enclosing quote are escaped, line feed, carriage return and tab
have short escapes, and every other character that is not printable is written by its code point
in two, four or eight hexadecimal digits.
-/
import Orthography.Text.Basic
import Orthography.Unicode.Printable

set_option autoImplicit false

namespace Orthography.Text.Quoted

/-- The last `width` hexadecimal digits of a number. -/
def hexDigits (width n : Nat) : Text :=
  match width with
  | 0 => []
  | width + 1 => hexDigits width (n / 16) ++ [Nat.digitChar (n % 16)]

/-- One character of a text between quotes `quote`. -/
def escape (quote c : Char) : Text :=
  if c = '\\' || c = quote then ['\\', c]
  else if c = '\n' then ['\\', 'n']
  else if c = '\r' then ['\\', 'r']
  else if c = '\t' then ['\\', 't']
  else if Unicode.isPrintable c then [c]
  else if c.toNat < 0x100 then '\\' :: 'x' :: hexDigits 2 c.toNat
  else if c.toNat < 0x10000 then '\\' :: 'u' :: hexDigits 4 c.toNat
  else '\\' :: 'U' :: hexDigits 8 c.toNat

/-- The quote that encloses a text. -/
def quoteFor (t : Text) : Char := if '\'' ∈ t ∧ '"' ∉ t then '"' else '\''

def encode (t : Text) : Text :=
  quoteFor t :: t.flatMap (escape (quoteFor t)) ++ [quoteFor t]

def ofString (s : String) : String := String.ofList (encode s.toList)

end Orthography.Text.Quoted
