/-
Where diagnostics go: into a report that is written line by line, and into a collection.
-/
import Orthography.Diagnostic.Basic

set_option autoImplicit false

namespace Orthography

/-- A report that takes one line for each diagnostic. -/
structure Report where
  written : String := ""
  count : Nat := 0
  deriving Repr

namespace Report

def lineOf (d : Diagnostic) : String := d.render ++ "\n"

def emit (r : Report) (d : Diagnostic) : Report := ⟨r.written ++ lineOf d, r.count + 1⟩

end Report

/-- Diagnostics in the order of emission, each of them handed on to a report if there is one. -/
structure Collection where
  diagnostics : Array Diagnostic := #[]
  /-- The report they are handed on to. -/
  report : Option Report := none
  deriving Repr

namespace Collection

def emit (c : Collection) (d : Diagnostic) : Collection :=
  ⟨c.diagnostics.push d, c.report.map (·.emit d)⟩

def emitAll (c : Collection) (ds : List Diagnostic) : Collection := ds.foldl emit c

end Collection

end Orthography
