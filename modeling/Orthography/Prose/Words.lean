/-
From raw text to prose.

Identifiers come as `camelCase`, `PascalCase` or `snake_case`, and literals carry escapes and
links; a spelling oracle understands words between spaces. So links are dropped, the escape pairs
for line feed and tab become spaces, the rest is cut into words, and the words are joined by
single spaces. Spans that an oracle gives back refer to the joined text.

A word begins at the first character and at every breaking character: a capital, one of `_ . ,`,
or a character with a numeric value. A capital stays in the word it begins, any other breaking
character is dropped, so the word behind it may be empty: `recieve_Data` becomes `recieve  Data`.
-/
import Orthography.Prose.Links
import Orthography.Unicode.Numeric
import Orthography.Unicode.Upper

set_option autoImplicit false

namespace Orthography.Prose

open Unicode

/-- A space for every pair of a backslash and `n`, then for every pair of a backslash and `t`. -/
def spaceEscapes (t : Text) : Text :=
  Text.replacePair '\\' 't' ' ' (Text.replacePair '\\' 'n' ' ' t)

/-! ## Words -/

/-- Does the character separate words without being part of one, if it is no capital? -/
def separates (c : Char) : Bool := c = '_' || c = '.' || c = ',' || isNumeric c

/-- Does a word begin at the character, whatever stands before it? -/
def breaks (c : Char) : Bool := isUpper c || separates c

/-- What a character leaves in the word that begins at it. -/
def seed (c : Char) : Text := if isUpper c || !separates c then [c] else []

def words : Text → List Text
  | [] => []
  | c :: rest =>
    (seed c ++ rest.takeWhile (!breaks ·)) :: words (rest.dropWhile (!breaks ·))
termination_by t => t.length
decreasing_by
  have := (List.dropWhile_suffix (!breaks ·) (l := rest)).length_le
  simp
  omega

/-- The prose of a raw text: its words, joined by single spaces. -/
def ofRaw (t : Text) : Text := List.intercalate [' '] (words (spaceEscapes (stripLinks t)))

end Orthography.Prose
