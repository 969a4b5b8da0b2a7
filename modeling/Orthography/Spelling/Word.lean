/-
Words as a spelling oracle sees them: runs of letters, with single apostrophes between runs.
-/
import Orthography.Text.Basic
import Orthography.Unicode.Decimal
import Orthography.Unicode.Word

set_option autoImplicit false

namespace Orthography.Spelling

open Unicode

/-- Is the character a letter of a word? Digits and the underscore are not. -/
def isLetter (c : Char) : Bool := isWord c && !isDecimal c && c != '_'

/-- The length of an apostrophe with letters behind it, and again, at the beginning of a text. -/
def apostropheLength (t : Text) : Nat :=
  match t with
  | '\'' :: rest =>
    let letters := rest.takeWhile isLetter
    if letters.isEmpty then 0
    else 1 + letters.length + apostropheLength (rest.drop letters.length)
  | _ => 0
termination_by t.length
decreasing_by simp only [List.length_drop, List.length_cons]; omega

/-- The length of the word at the beginning of a text, zero if there is none. -/
def wordLength (t : Text) : Nat :=
  let letters := t.takeWhile isLetter
  if letters.isEmpty then 0 else letters.length + apostropheLength (t.drop letters.length)

/-- The words of a text that begins at `offset`, each with the offset of its first letter. -/
def scan (offset : Nat) (t : Text) : List (Nat × Text) :=
  match t with
  | [] => []
  | c :: rest =>
    match wordLength (c :: rest) with
    | 0 => scan (offset + 1) rest
    | n + 1 => (offset, c :: rest.take n) :: scan (offset + (n + 1)) (rest.drop n)
termination_by t.length
decreasing_by all_goals simp only [List.length_drop, List.length_cons]; omega

/-- The words of a text from `start` on. -/
def wordsFrom (t : Text) (start : Nat) : List (Nat × Text) := scan start (t.drop start)

end Orthography.Spelling
