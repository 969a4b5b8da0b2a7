/-
Capital letters: the characters with the derived property Uppercase.

Beside the capitals of the alphabets the property holds of the roman numerals and the
circled letters (`Ⅷ`, `Ⓐ`). A titlecase digraph such as `ǅ` is neither upper nor lower
case, so it does not have it.
-/
import Orthography.Unicode.Runs

set_option autoImplicit false

namespace Orthography.Unicode

/-- The capitals from U+0080 on, as runs that start there. -/
def upperRuns : Runs := [
  (64, 23), (1, 7), (33, 1), (1, 1), (1, 1), (1, 1), (1, 1), (1, 1), (1, 1), (1, 1), (1, 1),
  (1, 1), (1, 1), (1, 1), (1, 1), (1, 1), (1, 1), (1, 1), (1, 1), (1, 1), (1, 1), (1, 1), (1, 1),
  (1, 1), (1, 1), (1, 1), (1, 1), (1, 1), (1, 1), (1, 1), (2, 1), (1, 1), (1, 1), (1, 1), (1, 1),
  (1, 1), (1, 1), (1, 1), (2, 1), (1, 1), (1, 1), (1, 1), (1, 1), (1, 1), (1, 1), (1, 1), (1, 1),
  (1, 1), (1, 1), (1, 1), (1, 1), (1, 1), (1, 1), (1, 1), (1, 1), (1, 1), (1, 1), (1, 1), (1, 1),
  (1, 1), (1, 1), (1, 2), (1, 1), (1, 1), (3, 2), (1, 1), (1, 2), (1, 3), (2, 4), (1, 2), (1, 3),
  (3, 2), (1, 2), (1, 1), (1, 1), (1, 2), (1, 1), (2, 1), (1, 2), (1, 3), (1, 1), (1, 2), (3, 1),
  (7, 1), (2, 1), (2, 1), (2, 1), (1, 1), (1, 1), (1, 1), (1, 1), (1, 1), (1, 1), (1, 1), (2, 1),
  (1, 1), (1, 1), (1, 1), (1, 1), (1, 1), (1, 1), (1, 1), (1, 1), (2, 1), (2, 1), (1, 3), (1, 1),
  (1, 1), (1, 1), (1, 1), (1, 1), (1, 1), (1, 1), (1, 1), (1, 1), (1, 1), (1, 1), (1, 1), (1, 1),
  (1, 1), (1, 1), (1, 1), (1, 1), (1, 1), (1, 1), (1, 1), (1, 1), (1, 1), (1, 1), (1, 1), (1, 1),
  (1, 1), (1, 1), (1, 1), (1, 1), (7, 2), (1, 2), (2, 1), (1, 4), (1, 1), (1, 1), (1, 1), (1, 1),
  (289, 1), (1, 1), (3, 1), (8, 1), (6, 1), (1, 3), (1, 1), (1, 2), (1, 17), (1, 9), (35, 1),
  (2, 3), (3, 1), (1, 1), (1, 1), (1, 1), (1, 1), (1, 1), (1, 1), (1, 1), (1, 1), (1, 1), (1, 1),
  (1, 1), (5, 1), (2, 1), (1, 2), (2, 51), (48, 1), (1, 1), (1, 1), (1, 1), (1, 1), (1, 1),
  (1, 1), (1, 1), (1, 1), (1, 1), (1, 1), (1, 1), (1, 1), (1, 1), (1, 1), (1, 1), (1, 1), (9, 1),
  (1, 1), (1, 1), (1, 1), (1, 1), (1, 1), (1, 1), (1, 1), (1, 1), (1, 1), (1, 1), (1, 1), (1, 1),
  (1, 1), (1, 1), (1, 1), (1, 1), (1, 1), (1, 1), (1, 1), (1, 1), (1, 1), (1, 1), (1, 1), (1, 1),
  (1, 1), (1, 1), (1, 2), (1, 1), (1, 1), (1, 1), (1, 1), (1, 1), (1, 1), (2, 1), (1, 1), (1, 1),
  (1, 1), (1, 1), (1, 1), (1, 1), (1, 1), (1, 1), (1, 1), (1, 1), (1, 1), (1, 1), (1, 1), (1, 1),
  (1, 1), (1, 1), (1, 1), (1, 1), (1, 1), (1, 1), (1, 1), (1, 1), (1, 1), (1, 1), (1, 1), (1, 1),
  (1, 1), (1, 1), (1, 1), (1, 1), (1, 1), (1, 1), (1, 1), (1, 1), (1, 1), (1, 1), (1, 1), (1, 1),
  (1, 1), (1, 1), (1, 1), (1, 1), (1, 1), (1, 1), (1, 1), (1, 1), (1, 1), (2, 38), (2889, 38),
  (1, 1), (5, 1), (722, 86), (2202, 43), (2, 3), (320, 1), (1, 1), (1, 1), (1, 1), (1, 1),
  (1, 1), (1, 1), (1, 1), (1, 1), (1, 1), (1, 1), (1, 1), (1, 1), (1, 1), (1, 1), (1, 1), (1, 1),
  (1, 1), (1, 1), (1, 1), (1, 1), (1, 1), (1, 1), (1, 1), (1, 1), (1, 1), (1, 1), (1, 1), (1, 1),
  (1, 1), (1, 1), (1, 1), (1, 1), (1, 1), (1, 1), (1, 1), (1, 1), (1, 1), (1, 1), (1, 1), (1, 1),
  (1, 1), (1, 1), (1, 1), (1, 1), (1, 1), (1, 1), (1, 1), (1, 1), (1, 1), (1, 1), (1, 1), (1, 1),
  (1, 1), (1, 1), (1, 1), (1, 1), (1, 1), (1, 1), (1, 1), (1, 1), (1, 1), (1, 1), (1, 1), (1, 1),
  (1, 1), (1, 1), (1, 1), (1, 1), (1, 1), (1, 1), (1, 1), (1, 1), (1, 1), (1, 1), (9, 1), (1, 1),
  (1, 1), (1, 1), (1, 1), (1, 1), (1, 1), (1, 1), (1, 1), (1, 1), (1, 1), (1, 1), (1, 1), (1, 1),
  (1, 1), (1, 1), (1, 1), (1, 1), (1, 1), (1, 1), (1, 1), (1, 1), (1, 1), (1, 1), (1, 1), (1, 1),
  (1, 1), (1, 1), (1, 1), (1, 1), (1, 1), (1, 1), (1, 1), (1, 1), (1, 1), (1, 1), (1, 1), (1, 1),
  (1, 1), (1, 1), (1, 1), (1, 1), (1, 1), (1, 1), (1, 1), (1, 1), (1, 1), (1, 1), (1, 1), (9, 8),
  (8, 6), (10, 8), (8, 8), (8, 6), (11, 1), (1, 1), (1, 1), (1, 1), (8, 8), (72, 4), (12, 4),
  (12, 4), (12, 5), (11, 4), (262, 1), (4, 1), (3, 3), (2, 3), (2, 1), (3, 5), (6, 1), (1, 1),
  (1, 1), (1, 4), (2, 4), (10, 2), (5, 1), (26, 16), (19, 1), (818, 26), (1840, 48), (48, 1),
  (1, 3), (2, 1), (1, 1), (1, 1), (1, 4), (1, 1), (2, 1), (8, 3), (1, 1), (1, 1), (1, 1), (1, 1),
  (1, 1), (1, 1), (1, 1), (1, 1), (1, 1), (1, 1), (1, 1), (1, 1), (1, 1), (1, 1), (1, 1), (1, 1),
  (1, 1), (1, 1), (1, 1), (1, 1), (1, 1), (1, 1), (1, 1), (1, 1), (1, 1), (1, 1), (1, 1), (1, 1),
  (1, 1), (1, 1), (1, 1), (1, 1), (1, 1), (1, 1), (1, 1), (1, 1), (1, 1), (1, 1), (1, 1), (1, 1),
  (1, 1), (1, 1), (1, 1), (1, 1), (1, 1), (1, 1), (1, 1), (1, 1), (1, 1), (8, 1), (1, 1), (4, 1),
  (31053, 1), (1, 1), (1, 1), (1, 1), (1, 1), (1, 1), (1, 1), (1, 1), (1, 1), (1, 1), (1, 1),
  (1, 1), (1, 1), (1, 1), (1, 1), (1, 1), (1, 1), (1, 1), (1, 1), (1, 1), (1, 1), (1, 1), (1, 1),
  (19, 1), (1, 1), (1, 1), (1, 1), (1, 1), (1, 1), (1, 1), (1, 1), (1, 1), (1, 1), (1, 1),
  (1, 1), (1, 1), (1, 1), (135, 1), (1, 1), (1, 1), (1, 1), (1, 1), (1, 1), (1, 1), (3, 1),
  (1, 1), (1, 1), (1, 1), (1, 1), (1, 1), (1, 1), (1, 1), (1, 1), (1, 1), (1, 1), (1, 1), (1, 1),
  (1, 1), (1, 1), (1, 1), (1, 1), (1, 1), (1, 1), (1, 1), (1, 1), (1, 1), (1, 1), (1, 1), (1, 1),
  (1, 1), (1, 1), (1, 1), (1, 1), (1, 1), (1, 1), (10, 1), (1, 1), (1, 2), (1, 1), (1, 1),
  (1, 1), (1, 1), (4, 1), (1, 1), (2, 1), (1, 1), (3, 1), (1, 1), (1, 1), (1, 1), (1, 1), (1, 1),
  (1, 1), (1, 1), (1, 1), (1, 1), (1, 5), (1, 5), (1, 1), (1, 1), (1, 1), (1, 1), (1, 1), (1, 1),
  (1, 1), (1, 4), (1, 1), (6, 1), (5, 1), (1, 1), (28, 1), (22315, 26), (1221, 40), (136, 36),
  (156, 11), (1, 15), (1, 7), (1, 2), (1770, 51), (3053, 32), (21888, 32), (26016, 26), (26, 26),
  (26, 26), (26, 1), (1, 2), (2, 1), (2, 2), (2, 4), (1, 8), (26, 26), (26, 2), (1, 4), (2, 8),
  (1, 7), (27, 2), (1, 4), (1, 5), (1, 1), (3, 7), (27, 26), (26, 26), (26, 26), (26, 26),
  (26, 26), (26, 26), (30, 25), (33, 25), (33, 25), (33, 25), (33, 25), (33, 1), (4405, 34),
  (2062, 26), (6, 26), (6, 26)]

def isUpper (c : Char) : Bool :=
  if c.toNat < 128 then 'A' ≤ c && c ≤ 'Z' else upperRuns.contains (c.toNat - 128)

end Orthography.Unicode
