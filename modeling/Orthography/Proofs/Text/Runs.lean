/-
Runs at the beginning of a text.

A run of characters of one class is cut off from a text with `takeWhile` and `drop`. Where a
character of another class follows, what stands behind it makes no difference to the run.
-/
import Orthography.Text.Basic

set_option autoImplicit false

namespace Orthography.Text

/-! ## Runs -/

theorem length_takeWhile_le (p : Char → Bool) (t : Text) : (t.takeWhile p).length ≤ t.length :=
  (List.takeWhile_prefix p).length_le

/-- Behind the run no more of it stands. -/
theorem head?_drop_takeWhile {p : Char → Bool} (t : Text) :
    ∀ c ∈ (t.drop (t.takeWhile p).length).head?, p c = false := by
  induction t with
  | nil => simp
  | cons c t ih =>
    by_cases hc : p c = true
    · rw [List.takeWhile_cons_of_pos hc, List.length_cons, List.drop_succ_cons]
      exact ih
    · rw [List.takeWhile_cons_of_neg hc]
      simpa using hc

/-! ## A character that ends a run -/

/-- A run ends at a character that does not belong to it, and what stands behind that makes no
difference. -/
theorem takeWhile_append_cons {p : Char → Bool} {s : Char} (hs : p s = false) (r z : Text) :
    (r ++ s :: z).takeWhile p = r.takeWhile p := by
  induction r with
  | nil => simp [hs]
  | cons c r ih => simp only [List.cons_append, List.takeWhile_cons, ih]

/-- A character at the end leaves a run as it is, unless the run is all there is and goes on. -/
theorem takeWhile_concat {p : Char → Bool} (r : Text) (s : Char) :
    (r ++ [s]).takeWhile p = r.takeWhile p
      ∨ r.drop (r.takeWhile p).length = []
        ∧ (r ++ [s]).drop ((r ++ [s]).takeWhile p).length = [] := by
  cases hs : p s with
  | false => exact Or.inl (takeWhile_append_cons hs r [])
  | true =>
    rw [List.takeWhile_append]
    split
    · next hall =>
      right
      simp [hall, hs]
    · exact Or.inl rfl

theorem length_lt_dropWhile_append {p : Char → Bool} {s : Char} (hs : p s = false) (t r : Text) :
    r.length < ((t ++ s :: r).dropWhile p).length := by
  induction t with
  | nil => simp [hs]
  | cons c t ih =>
    rw [List.cons_append, List.dropWhile_cons]
    split
    · exact ih
    · simp
      omega

/-- Whether a fixed text stands at the beginning does not depend on what stands behind a character
that it does not have. -/
theorem isPrefixOf_append_cons {fixed : Text} {s : Char} (hs : s ∉ fixed) (r z : Text) :
    fixed.isPrefixOf (r ++ s :: z) = fixed.isPrefixOf r := by
  induction fixed generalizing r with
  | nil => simp
  | cons c fixed ih =>
    have hne : c ≠ s := by grind
    cases r with
    | nil => simp [List.isPrefixOf, hne]
    | cons d r => simp [List.isPrefixOf, ih (by grind) r]

theorem drop_append_cons {r : Text} {n : Nat} (hn : n ≤ r.length) (s : Char) (z : Text) :
    (r ++ s :: z).drop n = r.drop n ++ s :: z :=
  List.drop_append_of_le_length hn

end Orthography.Text
