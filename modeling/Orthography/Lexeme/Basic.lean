/-
Lexemes of Python source, and the ways in which reading them can fail.
-/
import Orthography.Text.Basic

set_option autoImplicit false

namespace Orthography

/-! ## Lexemes -/

inductive LexemeKind where
  /-- A comment, from its hash sign to the end of the line. -/
  | comment
  /-- A line end that ends no logical line. -/
  | lineBreak
  /-- The end of a logical line. -/
  | newline
  | name
  | number
  | operator
  | string
  /-- A character that begins no lexeme, or a literal that its line leaves open. -/
  | error
  | indent
  /-- The indentation shrinks by one block. -/
  | dedent
  deriving DecidableEq, Repr

structure Lexeme where
  kind : LexemeKind
  text : Text
  start : Nat
  deriving DecidableEq, Repr

def Lexeme.stop (x : Lexeme) : Nat := x.start + x.text.length

/-! ## Failures -/

/-- Why the lexemes of a source end before the source does. -/
inductive Failure where
  /-- The source ends inside a string that begins at `start`. -/
  | unclosedString (start : Nat)
  /-- The source, of `length` characters, ends inside brackets or behind a line continuation. -/
  | unclosedStatement (length : Nat)
  /-- The line that begins at `lineStart` is indented by `indent` characters, less than the line
  before it but to the width of no open block. -/
  | strayDedent (lineStart indent : Nat)
  deriving DecidableEq, Repr

namespace Failure

def message : Failure → String
  | .unclosedString _ => "EOF in multi-line string"
  | .unclosedStatement _ => "EOF in multi-line statement"
  | .strayDedent _ _ => "unindent does not match any outer indentation level"

/-- Where reading stopped: at the open string, at the end of the source, or at the first character
behind the indentation. -/
def stop : Failure → Nat
  | .unclosedString start => start
  | .unclosedStatement length => length
  | .strayDedent lineStart indent => lineStart + indent

/-- Where the failure is shown. A stray indentation is shown at its last character. -/
def shownAt : Failure → Nat
  | .unclosedString start => start
  | .unclosedStatement length => length
  | .strayDedent lineStart indent => lineStart + (indent - 1)

end Failure

/-- The lexemes of a source up to its end or to a failure. -/
structure Lexing where
  lexemes : List Lexeme
  /-- What ended them early. -/
  failure : Option Failure
  deriving Repr

namespace Lexing

/-- The lexing with more lexemes before it. -/
def prepend (before : List Lexeme) (rest : Lexing) : Lexing :=
  { rest with lexemes := before ++ rest.lexemes }

end Lexing

end Orthography
