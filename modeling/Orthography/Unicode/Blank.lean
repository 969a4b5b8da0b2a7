/-
Blank characters: the white space of Unicode and the four information separators
U+001C to U+001F. Zero width space and byte order mark are not blank.
-/
import Orthography.Unicode.Runs

set_option autoImplicit false

namespace Orthography.Unicode

/-- The blank characters, as runs that start at U+0000. -/
def blankRuns : Runs := [
  (9, 5), (14, 5), (100, 1), (26, 1), (5599, 1), (2431, 11), (29, 2), (5, 1), (47, 1), (4000, 1)]

/-- Is the character white space or an information separator? -/
def isBlank (c : Char) : Bool := blankRuns.contains c.toNat

end Orthography.Unicode
