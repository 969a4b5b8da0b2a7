/-
Offsets and spans: half-open stretches `[start, stop)` of a text.

A span's bounds are natural numbers in order, and the type says so. Bounds that come from outside
are integers; `Offset.ofInt` and `Span.ofInts` take them in or say why they are refused.
-/
import Orthography.Text.Basic

set_option autoImplicit false

namespace Orthography

/-! ## Why bounds are refused -/

/-- What is wrong with integers offered as an offset or as bounds. -/
inductive BoundsError where
  /-- A length or an offset is below zero. -/
  | negativeSize
  /-- One of two bounds is below zero. -/
  | negativePosition
  /-- The first bound lies behind the second. -/
  | inverted
  deriving DecidableEq, Repr

def BoundsError.message : BoundsError → String
  | .negativeSize => "TextSize cannot be negative"
  | .negativePosition => "TextRange positions cannot be negative"
  | .inverted => "TextRange invariant violated: start > end"

/-! ## Offsets -/

namespace Offset

def ofInt (n : Int) : Except BoundsError Nat :=
  if n < 0 then .error .negativeSize else .ok n.toNat

def render (n : Nat) : String := "TextSize(" ++ toString n ++ ")"

end Offset

/-! ## Spans -/

/-- A half-open stretch of a text. -/
structure Span where
  /-- The offset of the first character. -/
  start : Nat
  /-- The offset behind the last character. -/
  stop : Nat
  start_le_stop : start ≤ stop := by omega
  deriving DecidableEq, Repr

namespace Span

def ofInts (start stop : Int) : Except BoundsError Span :=
  if start < 0 ∨ stop < 0 then .error .negativePosition
  else if h : start.toNat ≤ stop.toNat then .ok ⟨start.toNat, stop.toNat, h⟩
  else .error .inverted

def empty (offset : Nat) : Span := ⟨offset, offset, Nat.le_refl offset⟩

def ofLength (offset length : Nat) : Span := ⟨offset, offset + length, Nat.le_add_right ..⟩

def length (s : Span) : Nat := s.stop - s.start

/-- Spans are ordered by their start, and from one start by their end. -/
def before (s t : Span) : Bool :=
  s.start < t.start || (s.start == t.start && s.stop < t.stop)

def sort (spans : List Span) : List Span := spans.mergeSort fun s t => !t.before s

def cut (s : Span) (t : Text) : Text := t.slice s.start s.stop

def render (s : Span) : String :=
  "TextRange(" ++ toString s.start ++ ", " ++ toString s.stop ++ ")"

end Span

end Orthography
