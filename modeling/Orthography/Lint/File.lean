/-
Checking a file.

A file that cannot be read gets one diagnostic that says why, and the run goes on.
-/
import Orthography.File.Read
import Orthography.Lint.Run

set_option autoImplicit false

namespace Orthography.Lint

open Spelling

/-- What becomes of a file that cannot be read. -/
def unreadable (report : Option Report) (p : Path) (e : ReadError) : Outcome :=
  let reason := e.message p
  let diagnostic := Rule.readError.finding (Rule.readError.detailed reason) 0 p.render
  { filePath := p.render, parsed := none, diagnostics := [diagnostic]
    report := report.map (·.emit diagnostic), acts := []
    log := [⟨.info, "typolint.lint.runner", "skipping " ++ p.render ++ ": " ++ reason⟩] }

def checkFile (store : Store) (oracle : Oracle) (options : Options) (report : Option Report)
    (p : Path) : Except Escape Outcome :=
  (readSource store p).map fun
    | .ok source => checkSource oracle options report source p.render
    | .error e => unreadable report p e

end Orthography.Lint
