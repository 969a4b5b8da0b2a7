/-
Sets of code points as alternating run lengths.

A property of characters holds of whole stretches of the code space, so it is kept as pairs:
how many code points to pass over, then how many to take. Membership walks along the pairs.
-/

set_option autoImplicit false

namespace Orthography.Unicode

/-- Pairs of a gap and a length. The first gap is counted from the start of the table, every
other one from the end of the run before it. -/
abbrev Runs := List (Nat × Nat)

namespace Runs

/-- The place of `n` in the run that holds it, counted from the run's start. -/
def place? : Runs → Nat → Option Nat
  | [], _ => none
  | (gap, len) :: rest, n =>
    if n < gap then none
    else if n < gap + len then some (n - gap)
    else place? rest (n - (gap + len))

def contains : Runs → Nat → Bool
  | [], _ => false
  | (gap, len) :: rest, n =>
    if n < gap then false
    else if n < gap + len then true
    else contains rest (n - (gap + len))

/-- Exactly the members have a place. -/
theorem isSome_place? (runs : Runs) (n : Nat) : (runs.place? n).isSome = runs.contains n := by
  induction runs generalizing n with
  | nil => rfl
  | cons run rest ih =>
    unfold place? contains
    split
    · rfl
    · split
      · rfl
      · exact ih _

end Runs

end Orthography.Unicode
