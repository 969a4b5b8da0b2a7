/-
The index of lines: from an offset to its line and column, and back.

A line ends behind a line feed and nowhere else. Lines and columns are counted from one. The
index keeps the offset at which each line starts, so the line of an offset is the number of
starts at or before it.
-/
import Orthography.Text.Basic
import Orthography.Text.MachineWord

set_option autoImplicit false

namespace Orthography

/-- A place in a text as people give it, both parts counted from one. -/
structure LineColumn where
  line : Nat
  column : Nat
  deriving DecidableEq, Repr

/-- Where the lines of a text start, and how long the text is. -/
structure LineIndex where
  /-- The offset at which each line starts, in order. -/
  starts : List Nat
  length : Nat
  deriving DecidableEq, Repr

namespace LineIndex

/-- The starts of the lines behind the first one, for a text that itself starts at `offset`. -/
def startsFrom (offset : Nat) : Text → List Nat
  | [] => []
  | c :: rest =>
    if c = '\n' then (offset + 1) :: startsFrom (offset + 1) rest else startsFrom (offset + 1) rest

def ofText (t : Text) : LineIndex := ⟨0 :: startsFrom 0 t, t.length⟩

/-- How many lines the text has; behind a last line feed there is one more, empty line. -/
def lineCount (ix : LineIndex) : Nat := ix.starts.length

/-- The line and column of an offset; none for an offset outside the text. -/
def lineColumn? (ix : LineIndex) (offset : Int) : Option LineColumn :=
  if offset < 0 ∨ offset > ix.length then none
  else
    let reached := ix.starts.filter (· ≤ offset.toNat)
    some ⟨reached.length, offset.toNat - reached.getLastD 0 + 1⟩

/-- Why a line number has no line. -/
inductive LineError where
  /-- The line lies before the first one. -/
  | beforeFirst
  /-- The line lies before the first one, by more than a machine word can count. -/
  | beyondReach
  deriving DecidableEq, Repr

def LineError.message : LineError → String
  | .beforeFirst => "tuple index out of range"
  | .beyondReach => "cannot fit 'int' into an index-sized integer"

/-- The start of a line counted from one. Line zero is the last line, line minus one the line
before it, and so on down to the first; below that there is none. Counted from zero, the line must
be a machine word. -/
def lineStart (ix : LineIndex) (line : Int) : Except LineError Nat :=
  let place := if 1 ≤ line then line - 1 else ix.lineCount + (line - 1)
  if line ≤ MachineWord.least then .error .beyondReach
  else if 0 ≤ place then .ok (ix.starts.getD place.toNat ix.length)
  else .error .beforeFirst

/-- The offset of a line counted from one and a column counted from zero. A place behind the end
of the text counts as its end. There is no answer for a line before the first one. -/
def offsetOf (ix : LineIndex) (line column : Int) : Except LineError Int :=
  if line > ix.lineCount then .ok ix.length
  else (ix.lineStart line).map fun start => min (start + column) ix.length

end LineIndex

end Orthography
