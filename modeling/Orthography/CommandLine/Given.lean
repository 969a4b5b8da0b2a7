/-
What a flag is given.

The two hyphens that separate flags from paths are no value. Attached to a flag they are dropped,
as in `--marker=--`, and the flag is left with a blank. A blank is taken over like any other value
and does no harm, until somebody needs the value that is not there.
-/
import Orthography.Text.Basic

set_option autoImplicit false

namespace Orthography.CommandLine

/-- A value, or the blank that is left where it was dropped. -/
inductive Given (α : Type) where
  | value (a : α)
  /-- No value, though one was asked for. -/
  | blank
  deriving DecidableEq, Repr

namespace Given

/-- What a flag is given by the text attached to it. -/
def ofAttached (t : Text) : Given Text := if t = ['-', '-'] then .blank else .value t

def value? {α : Type} : Given α → Option α
  | .value a => some a
  | .blank => none

/-- The value, or another one for a blank. -/
def valueOr {α : Type} (fallback : α) (g : Given α) : α := g.value?.getD fallback

def isBlank {α : Type} (g : Given α) : Bool := g.value?.isNone

def map {α β : Type} (f : α → β) : Given α → Given β
  | .value a => .value (f a)
  | .blank => .blank

/-- The values before the first blank. -/
def beforeBlank {α : Type} : List (Given α) → List α
  | .value a :: rest => a :: beforeBlank rest
  | .blank :: _ | [] => []

end Given

/-! ## Needing a blank -/

/-- What a value is needed for that is blank. -/
inductive BlankUse where
  /-- To be accepted as a word. -/
  | word
  /-- To be matched with a file. -/
  | pattern
  /-- To be looked for in a comment. -/
  | marker
  /-- To be compared with the length of a word. -/
  | length
  deriving DecidableEq, Repr

def BlankUse.message : BlankUse → String
  | .word => "The provided value [] is not of type str or bytes"
  | .pattern => "expected str, bytes or os.PathLike object, not list"
  | .marker => "'in <string>' requires string as left operand, not list"
  | .length => "'<' not supported between instances of 'int' and 'list'"

end Orthography.CommandLine
