/-
Natural numbers and their digits.
-/
import Orthography.Text.Basic

set_option autoImplicit false

namespace Orthography.Decimal

/-- The value of digits of a base; characters that are no digits are passed over. -/
def valueOf (base : Nat) (t : Text) : Nat :=
  t.foldl (fun n c => match Text.hexValue? c with | some d => n * base + d | none => n) 0

def digitsOf (n : Nat) : Text := (toString n).toList

/-- The last `width` decimal digits of a number, with zeros before a shorter one. -/
def padded (width n : Nat) : Text :=
  match width with
  | 0 => []
  | width + 1 => padded width (n / 10) ++ [Nat.digitChar (n % 10)]

/-- The most decimal digits that a text may have to be read as a whole number. -/
def maxDigits : Nat := 4300

/-- The refusal of a text with more digits than that. -/
def tooManyDigitsMessage (digits : Nat) : String :=
  "Exceeds the limit (" ++ toString maxDigits ++
    " digits) for integer string conversion: value has " ++ toString digits ++
    " digits; use sys.set_int_max_str_digits() to increase the limit"

end Orthography.Decimal
