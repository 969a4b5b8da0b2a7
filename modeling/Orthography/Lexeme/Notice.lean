/-
How a failure is told, and which offset is read off what is told.

Who reads the lexemes of a source learns of a failure by a line and a column, and there are two
forms of that. A source that ends too early is told by a line counted from one and a column counted
from zero. A line that does not fit is told as an error of syntax, whose line and column may be
unknown, and whose column is taken to count from one. The lexer counts it from zero there too, so
what is read off the second form lies one character before the place it means.
-/
import Orthography.Lexeme.Basic
import Orthography.Text.LineIndex

set_option autoImplicit false

namespace Orthography

namespace Text

/-- The line of an offset, counted from one. -/
def row (t : Text) (offset : Nat) : Nat := 1 + (t.take offset).count '\n'

/-- How many characters of its line stand before an offset. -/
def column (t : Text) (offset : Nat) : Nat :=
  ((t.take offset).reverse.takeWhile (· != '\n')).length

end Text

/-- What is told of the place of a failure. -/
inductive Notice where
  /-- The source ends too early. The column counts from zero. -/
  | incomplete (line column : Int)
  /-- An error of syntax. Either part may be unknown. -/
  | syntaxError (line column : Option Int)
  deriving DecidableEq, Repr

namespace Notice

/-- A number that is unknown or zero counts as one. -/
def orOne (n : Option Int) : Int := (n.filter (· ≠ 0)).getD 1

/-- The offset that is read off a notice. -/
def offset (index : LineIndex) : Notice → Except LineIndex.LineError Int
  | .incomplete line column => index.offsetOf line column
  | .syntaxError line column => index.offsetOf (orOne line) (max (orOne column - 1) 0)

end Notice

/-- What the lexer tells of a failure. Where a statement is left open, it has asked for one line
more than there are. The column of a stray indentation is the number of characters in it. -/
def Failure.notice (source : Text) : Failure → Notice
  | .unclosedString start => .incomplete (source.row start) (source.column start)
  | .unclosedStatement _ => .incomplete (source.lines.length + 1 : Nat) 0
  | .strayDedent lineStart indent => .syntaxError (some (source.row lineStart)) (some indent)

end Orthography
