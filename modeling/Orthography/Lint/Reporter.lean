/-
From a misspelled word to a diagnostic.
-/
import Orthography.Diagnostic.Basic
import Orthography.Log
import Orthography.Spelling.Oracle

set_option autoImplicit false

namespace Orthography.Lint

open Spelling

/-- The message for a misspelled word, with a proposal or without. -/
def misspellingMessage (word : Text) (suggestion : Option Text) : String :=
  let quoted (w : Text) : String := "\"" ++ String.ofList w ++ "\""
  let label := Rule.misspelledWord.message
  match suggestion with
  | some s => quoted word ++ ": did you mean " ++ quoted s ++ "? (" ++ label ++ ")"
  | none => quoted word ++ " (" ++ label ++ ")"

/-- A file under examination: its name, its lines, and who judges its words. -/
structure Site where
  filePath : String
  index : LineIndex
  oracle : Oracle

namespace Site

/-- The record for an offset that lies outside the source. -/
def unplacedRecord (site : Site) (offset : Int) : LogRecord :=
  ⟨.warning, "typolint.diagnostics.report",
    "Can't resolve position " ++ toString offset ++ " in " ++ site.filePath ++
      "; reporting at 0:0"⟩

/-- The diagnostic for the word that `misspelled` covers in a text, placed at an offset of the
source. -/
def diagnose (site : Site) (offset : Int) (t : Text) (misspelled : Span) : Diagnostic :=
  let message := misspellingMessage (misspelled.cut t) (site.oracle.suggest t misspelled)
  (Rule.misspelledWord.finding message offset.toNat site.filePath).placed
    (site.index.lineColumn? offset)

/-- What is logged about a finding at an offset. -/
def records (site : Site) (offset : Int) : List LogRecord :=
  match site.index.lineColumn? offset with
  | some _ => []
  | none => [site.unplacedRecord offset]

end Site

end Orthography.Lint
