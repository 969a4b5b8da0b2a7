/-
Checking a source.

The source is parsed, unless it comes parsed already, and its tree is checked. The findings are
emitted as they arise, those about spelling first, those of the parser after them.
-/
import Orthography.Diagnostic.Sink
import Orthography.Lint.Visitor
import Orthography.Parse.Basic

set_option autoImplicit false

namespace Orthography.Lint

open Spelling

/-- What became of one file. -/
structure Outcome where
  filePath : String
  /-- Its source, parsed; none for a file that cannot be read. -/
  parsed : Option Parsed
  /-- The findings, in the order of emission. -/
  diagnostics : List Diagnostic
  report : Option Report
  acts : List Act
  log : List LogRecord
  deriving Repr

def Outcome.queries (o : Outcome) : List Text := Act.queries o.acts

/-- A parsed source was given for another text. -/
inductive RunError where
  | otherText
  deriving DecidableEq, Repr

def RunError.message : RunError → String
  | .otherText => "Provided parse result must come from the same text"

def checkParsed (oracle : Oracle) (options : Options) (report : Option Report) (p : Parsed) :
    Outcome :=
  let site : Site := ⟨p.filePath, p.index, oracle⟩
  let acts := site.checkTree options p.tree
  let collected := (Collection.mk #[] report).emitAll (Act.diagnostics acts ++ p.diagnostics)
  { filePath := p.filePath, parsed := some p, diagnostics := collected.diagnostics.toList
    report := collected.report, acts, log := Act.records acts }

def checkSource (oracle : Oracle) (options : Options) (report : Option Report) (source : Text)
    (filePath : String) : Outcome :=
  let p := parse source filePath
  let outcome := checkParsed oracle options report p
  { outcome with log := p.log ++ outcome.log }

/-- Checks a text that has been parsed before. -/
def checkAgain (oracle : Oracle) (options : Options) (report : Option Report) (source : Text)
    (p : Parsed) : Except RunError Outcome :=
  if p.source = source then .ok (checkParsed oracle options report p) else .error .otherText

end Orthography.Lint
