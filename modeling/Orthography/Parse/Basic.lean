/-
Parsing: from a source to its token tree.

A source that cannot be read to its end is no reason to give up: the tree then holds what was read
before, all the rest is white space, and one diagnostic says where reading failed.
-/
import Orthography.Diagnostic.Basic
import Orthography.Lexeme.Lexer
import Orthography.Log
import Orthography.Parse.Events

set_option autoImplicit false

namespace Orthography

/-- A source with its tree and what went wrong in making it. -/
structure Parsed where
  source : Text
  tree : Tree
  diagnostics : List Diagnostic
  filePath : String
  index : LineIndex
  log : List LogRecord
  deriving Repr

namespace Parsed

def hasErrors (p : Parsed) : Bool := Diagnostic.hasErrors p.diagnostics

def failureDiagnostic (filePath : String) (index : LineIndex) (failure : Failure) : Diagnostic :=
  let offset := min failure.shownAt index.length
  (Rule.tokenizeError.finding (Rule.tokenizeError.detailed failure.message) offset filePath).placed
    (index.lineColumn? offset)

def failureRecord (filePath : String) (failure : Failure) : LogRecord :=
  ⟨.debug, "typolint.parser.python", "tokenize failed in " ++ filePath ++ ": " ++ failure.message⟩

/-- A source parsed with the given lexing. -/
def ofLexing (source : Text) (filePath : String) (lexing : Lexing) : Parsed :=
  let index := LineIndex.ofText source
  { source, filePath, index
    tree := Tree.ofLexemes source lexing.lexemes
    diagnostics := lexing.failure.toList.map (failureDiagnostic filePath index)
    log := lexing.failure.toList.map (failureRecord filePath) }

end Parsed

def parse (source : Text) (filePath : String) : Parsed :=
  Parsed.ofLexing source filePath (lex source)

end Orthography
