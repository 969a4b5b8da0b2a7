/-
Diagnostics: what is wrong, where, and how bad it is.
-/
import Orthography.Text.LineIndex
import Orthography.Text.Span

set_option autoImplicit false

namespace Orthography

/-- A finding. Line and column are counted from one; both are zero where the place of the finding
could not be resolved. -/
structure Diagnostic where
  code : String
  message : String
  span : Span := Span.empty 0
  severity : String := "error"
  hint : Option String := none
  category : Option String := none
  filePath : String := "<string>"
  line : Int := 0
  column : Int := 0
  deriving DecidableEq, Repr

namespace Diagnostic

def isError (d : Diagnostic) : Bool := d.severity == "error"

def hasErrors (ds : List Diagnostic) : Bool := ds.any isError

/-- The finding as a line of a report, without its line end. -/
def render (d : Diagnostic) : String :=
  d.filePath ++ ":" ++ toString d.line ++ ":" ++ toString d.column ++ ": " ++
    d.severity ++ ": " ++ d.message

/-- The finding at a line and column, or at none. -/
def placed (d : Diagnostic) (place : Option LineColumn) : Diagnostic :=
  match place with
  | some p => { d with line := p.line, column := p.column }
  | none => { d with line := 0, column := 0 }

end Diagnostic

/-! ## Rules

A rule fixes what its findings have in common. -/

/-- What findings of one kind have in common. -/
structure Rule where
  code : String
  message : String
  hint : Option String := none
  severity : String := "error"
  category : Option String := none
  deriving Repr

namespace Rule

def misspelledWord : Rule where
  code := "SPELLING_MISSPELLED_WORD"
  message := "CheckSpelling"
  hint := some ("Fix the spelling, add the word to \x60known-words\x60, " ++
    "or mark the line with the suppression comment.")
  severity := "warning"
  category := some "spelling"

/-- The lexemes of a source end before the source does. -/
def tokenizeError : Rule where
  code := "PARSER_TOKENIZE_ERROR"
  message := "Source could not be fully tokenized; only the text before the error was checked."
  category := some "parser"

def readError : Rule where
  code := "IO_READ_ERROR"
  message := "File could not be read."
  category := some "io"

/-- The rule's message with the particulars of a finding. -/
def detailed (rule : Rule) (detail : String) : String := rule.message ++ " (" ++ detail ++ ")"

/-- A finding under the rule, its place aside. -/
def finding (rule : Rule) (message : String) (offset : Nat) (filePath : String) : Diagnostic :=
  { code := rule.code, message, span := Span.empty offset, severity := rule.severity
    hint := rule.hint, category := rule.category, filePath }

end Rule

end Orthography
