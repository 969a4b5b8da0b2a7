/-
Text as a sequence of characters.

Every offset, length and column of the library counts characters, so a text is the list of its
characters and an offset is a position in that list. This file has the operations on such lists
that the rest is built from: slices, lines, trimming, replacement.
-/

set_option autoImplicit false

namespace Orthography

/-- A text, as the list of its characters. -/
abbrev Text := List Char

namespace Text

/-! ## Slices -/

/-- The characters from `start` up to `stop`; what lies past the end is left out. -/
def slice (t : Text) (start stop : Nat) : Text := (t.drop start).take (stop - start)

/-- A slice is as long as its bounds are apart, as far as the text reaches. -/
theorem length_slice (t : Text) (start stop : Nat) :
    (t.slice start stop).length = min (stop - start) (t.length - start) := by
  simp [slice]

/-- Two adjoining slices make one. -/
theorem slice_append_slice (t : Text) {a b c : Nat} (hab : a ≤ b) (hbc : b ≤ c) :
    t.slice a b ++ t.slice b c = t.slice a c := by
  obtain ⟨m, rfl⟩ := Nat.exists_eq_add_of_le hab
  obtain ⟨n, rfl⟩ := Nat.exists_eq_add_of_le hbc
  have hm : a + m - a = m := by omega
  have hn : a + m + n - (a + m) = n := by omega
  have hmn : a + m + n - a = m + n := by omega
  simp only [slice, hm, hn, hmn, List.take_add, List.drop_drop]

/-! ## Lines

A line ends behind a line feed, which belongs to it. -/

/-- The lines of a text, each with the line feed that ends it. -/
def lines : Text → List Text
  | [] => []
  | c :: rest =>
    if c = '\n' then [c] :: lines rest
    else match lines rest with
      | [] => [[c]]
      | line :: more => (c :: line) :: more

/-- The lines, joined, are the text. -/
theorem flatten_lines (t : Text) : (lines t).flatten = t := by
  induction t with
  | nil => rfl
  | cons c rest ih =>
    unfold lines
    split
    · simp [ih]
    · split
      · next h => rw [h] at ih; simp at ih; simp [← ih]
      · next h => rw [h] at ih; simp at ih; simp [← ih]

/-- The parts of a text between separators; there is one more part than there are separators. -/
def split (sep : Char) : Text → List Text
  | [] => [[]]
  | c :: rest =>
    if c = sep then [] :: split sep rest
    else match split sep rest with
      | [] => [[c]]
      | part :: more => (c :: part) :: more

/-! ## Trimming and replacing -/

/-- The text without the characters at either end that satisfy `blank`. -/
def trim (blank : Char → Bool) (t : Text) : Text :=
  ((t.dropWhile blank).reverse.dropWhile blank).reverse

/-- Does `part` stand somewhere in the text? -/
def holds (part : Text) : Text → Bool
  | [] => part.isEmpty
  | c :: rest => part.isPrefixOf (c :: rest) || holds part rest

/-- Every pair of `a` and `b` in that order is replaced by `new`, from the left. -/
def replacePair (a b new : Char) : Text → Text
  | [] => []
  | [c] => [c]
  | c :: d :: rest =>
    if c = a ∧ d = b then new :: replacePair a b new rest
    else c :: replacePair a b new (d :: rest)

/-! ## Character classes of the ASCII range -/

def isPunctuation (c : Char) : Bool :=
  33 ≤ c.toNat && c.toNat < 127 && !c.isAlphanum

/-- The value of a hexadecimal digit. -/
def hexValue? (c : Char) : Option Nat :=
  if '0' ≤ c ∧ c ≤ '9' then some (c.toNat - '0'.toNat)
  else if 'a' ≤ c ∧ c ≤ 'f' then some (c.toNat - 'a'.toNat + 10)
  else if 'A' ≤ c ∧ c ≤ 'F' then some (c.toNat - 'A'.toNat + 10)
  else none

def isHexDigit (c : Char) : Bool := (hexValue? c).isSome

end Text

end Orthography
