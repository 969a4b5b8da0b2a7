/-
Numbers of the binary64 format, and their decimal texts.

A finite number is `m · 2^q` with a mantissa of at most 53 bits and an exponent of at least −1074.
A decimal is rounded to the nearest such number, and a tie goes to the even mantissa. The text of a
number has the fewest digits that are rounded to it, and of the texts with so many digits the one
nearest to its value. All arithmetic is exact.
-/
import Orthography.Decimal.Digits

set_option autoImplicit false

namespace Orthography.Decimal

inductive Binary64 where
  /-- The number `mantissa · 2 ^ exponent`, or its negative. -/
  | finite (negative : Bool) (mantissa : Nat) (exponent : Int)
  | infinite (negative : Bool)
  | nan
  deriving DecidableEq, Repr

/-! ## Rounding -/

/-- The quotient rounded to the nearest whole number, a tie to the even one. -/
def roundHalfEven (num den : Nat) : Nat :=
  let q := num / den
  let r := num % den
  if 2 * r < den then q else if 2 * r > den then q + 1 else q + q % 2

/-- The quotient `num · 2 ^ (-q) / den` as numerator and denominator. -/
def scaled (num den : Nat) (q : Int) : Nat × Nat :=
  if 0 ≤ q then (num, den * Nat.pow 2 q.toNat) else (num * Nat.pow 2 (-q).toNat, den)

/-- The exponent of the number nearest to a positive quotient. -/
def exponentOf (num den : Nat) : Int :=
  let guess : Int := (Nat.log2 num : Int) - Nat.log2 den
  let (a, b) := scaled num den guess
  max (-1074) ((if b ≤ a then guess else guess - 1) - 52)

/-- The mantissa and exponent nearest to a quotient; none if they go beyond the format. -/
def nearest? (num den : Nat) : Option (Nat × Int) :=
  if num = 0 then some (0, -1074)
  else
    let q := exponentOf num den
    let (a, b) := scaled num den q
    let m := roundHalfEven a b
    let (m, q) := if m = Nat.pow 2 53 then (Nat.pow 2 52, q + 1) else (m, q)
    if 971 < q then none else some (m, q)

/-- The quotient of two whole numbers that `digits · 10 ^ exponent` is. -/
def quotient (digits : Nat) (exponent : Int) : Nat × Nat :=
  if 0 ≤ exponent then (digits * Nat.pow 10 exponent.toNat, 1)
  else (digits, Nat.pow 10 (-exponent).toNat)

/-- The mantissa and exponent nearest to `digits · 10 ^ exponent`. Far beyond the format the answer
is known without the power of ten. -/
def ofDecimal? (digits : Nat) (exponent : Int) : Option (Nat × Int) :=
  let size := (digitsOf digits).length + exponent
  if digits = 0 ∨ size < -330 then some (0, -1074)
  else if 330 < size then none
  else
    let (num, den) := quotient digits exponent
    nearest? num den

/-- The number nearest to `digits · 10 ^ exponent`, or to its negative. -/
def Binary64.ofDecimal (negative : Bool) (digits : Nat) (exponent : Int) : Binary64 :=
  match ofDecimal? digits exponent with
  | some (m, q) => .finite negative m q
  | none => .infinite negative

/-! ## The shortest decimal -/

/-- How many digits stand before the point of a positive quotient: the least `k` from `low` on, in
at most `fuel` steps, for which the quotient is below `10 ^ k`. -/
def pointPlace (num den : Nat) (low : Int) : Nat → Int
  | 0 => low
  | fuel + 1 =>
    let (a, b) := quotient 1 low
    if num * b < den * a then low else pointPlace num den (low + 1) fuel

/-- The decimal of the quotient's grid with steps of `10 ^ step` that is rounded to `m · 2 ^ q`: of
the two neighbours the nearer one that is, a tie going to the even one. -/
def onGrid? (num den m : Nat) (q step : Int) : Option Nat :=
  let (a, b) :=
    if 0 ≤ step then (num, den * Nat.pow 10 step.toNat)
    else (num * Nat.pow 10 (-step).toNat, den)
  let down := a / b
  let first := roundHalfEven a b
  let second := if first = down then down + 1 else down
  [first, second].find? fun d => ofDecimal? d step = some (m, q)

/-- The digits and the place of the point of the shortest decimal that is rounded to `m · 2 ^ q`,
looked for from `count` digits on. -/
def shortestFrom (num den m : Nat) (q point : Int) (count : Nat) : Nat → Text × Int
  | 0 => ((digitsOf m), point)
  | fuel + 1 =>
    match onGrid? num den m q (point - count) with
    | some d =>
      let digits := digitsOf d
      (digits, point - count + digits.length)
    | none => shortestFrom num den m q point (count + 1) fuel

/-- The digits of the shortest decimal that is rounded to `m · 2 ^ q`, without zeros at the end, and
the place of its point. -/
def shortest (m : Nat) (q : Int) : Text × Int :=
  let (num, den) := if 0 ≤ q then (m * Nat.pow 2 q.toNat, 1) else (m, Nat.pow 2 (-q).toNat)
  let (digits, point) := shortestFrom num den m q (pointPlace num den (-330) 700) 1 17
  ((digits.reverse.dropWhile (· = '0')).reverse, point)

/-! ## Layout -/

/-- How the digits of a number are laid out. -/
structure Layout where
  /-- The point stands behind more than this many places, counted from the first digit. -/
  least : Int
  /-- The point stands behind at most this many digits. -/
  greatest : Int
  /-- The least number of digits of an exponent. -/
  exponentWidth : Nat

/-- Numbers are positional from `0.0001` up to below `10 ^ 16`; beyond that the exponent has a sign
and at least two digits. -/
def plainLayout : Layout := ⟨-4, 16, 2⟩

/-- Digits with a point at a place, in positional notation; a whole number keeps one zero. -/
def positional (digits : Text) (point : Int) : Text :=
  if point ≤ 0 then "0.".toList ++ List.replicate (-point).toNat '0' ++ digits
  else
    let n := point.toNat
    let whole := digits.take n ++ List.replicate (n - digits.length) '0'
    let part := digits.drop n
    whole ++ '.' :: (if part.isEmpty then ['0'] else part)

def scientific (layout : Layout) (digits : Text) (point : Int) : Text :=
  let e := point - 1
  let value := digitsOf e.natAbs
  let zeros := List.replicate (layout.exponentWidth - value.length) '0'
  digits.take 1 ++ (if digits.length ≤ 1 then [] else '.' :: digits.drop 1) ++
    'e' :: (if e < 0 then '-' else '+') :: (zeros ++ value)

def Binary64.render (layout : Layout) : Binary64 → Text
  | .nan => "nan".toList
  | .infinite negative => (if negative then ['-'] else []) ++ "inf".toList
  | .finite negative m q =>
    (if negative then ['-'] else []) ++
      if m = 0 then "0.0".toList
      else
        let (digits, point) := shortest m q
        if layout.least < point ∧ point ≤ layout.greatest then positional digits point
        else scientific layout digits point

end Orthography.Decimal
