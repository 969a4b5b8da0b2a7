/-
Offsets, and the lines and columns that stand for them.

The index keeps where lines start, and the line of an offset is the number of starts up to it. That
is a search in a sorted row, but sortedness is not what the argument rests on: a text that is cut in
two at the offset has the starts of its first part, which all lie up to the offset, and those of its
second part, which all lie behind it (`startsFrom_append`). So the starts that are counted are a
beginning of the row, the last of them is the one from which the column is counted, and looking it
up again leads back to the offset.
-/
import Mathlib.Data.List.Count
import Orthography.Text.LineIndex

set_option autoImplicit false

namespace Orthography

namespace LineIndex

/-! ## Where lines start -/

/-- The starts in two texts, one behind the other. -/
theorem startsFrom_append (offset : Nat) (a b : Text) :
    startsFrom offset (a ++ b) = startsFrom offset a ++ startsFrom (offset + a.length) b := by
  induction a generalizing offset with
  | nil => rfl
  | cons c rest ih =>
    have hoffset : offset + (c :: rest).length = offset + 1 + rest.length := by
      rw [List.length_cons]
      omega
    rw [List.cons_append, startsFrom, startsFrom, ih, hoffset]
    split <;> rfl

/-- Every line feed starts a line. -/
theorem length_startsFrom (offset : Nat) (t : Text) :
    (startsFrom offset t).length = t.count '\n' := by
  induction t generalizing offset with
  | nil => rfl
  | cons c rest ih =>
    rw [startsFrom]
    by_cases hc : c = '\n'
    · rw [if_pos hc, List.length_cons, ih, hc, List.count_cons_self]
    · rw [if_neg hc, ih, List.count_cons_of_ne hc]

/-- A line starts behind a character of the text. -/
theorem startsFrom_bounds {offset start : Nat} {t : Text} (h : start ∈ startsFrom offset t) :
    offset < start ∧ start ≤ offset + t.length := by
  induction t generalizing offset with
  | nil => cases h
  | cons c rest ih =>
    rw [startsFrom] at h
    rw [List.length_cons]
    split at h
    · rcases List.mem_cons.mp h with rfl | h
      · omega
      · have := ih h
        omega
    · have := ih h
      omega

/-! ## The line of an offset -/

variable {t : Text} {offset : Nat}

/-- The starts of lines, those up to an offset and those behind it. -/
theorem starts_ofText (h : offset ≤ t.length) :
    (ofText t).starts
      = (0 :: startsFrom 0 (t.take offset)) ++ startsFrom offset (t.drop offset) := by
  have hlen : (t.take offset).length = offset := List.length_take_of_le h
  conv_lhs => rw [ofText, ← List.take_append_drop offset t]
  rw [startsFrom_append, hlen, Nat.zero_add, List.cons_append]

/-- The starts that lie up to an offset are those before it. -/
theorem filter_starts_ofText (h : offset ≤ t.length) :
    (ofText t).starts.filter (· ≤ offset) = 0 :: startsFrom 0 (t.take offset) := by
  have hlen : (t.take offset).length = offset := List.length_take_of_le h
  have hbefore : ∀ start ∈ 0 :: startsFrom 0 (t.take offset), decide (start ≤ offset) = true := by
    intro start hstart
    rw [decide_eq_true_eq]
    rcases List.mem_cons.mp hstart with rfl | hstart
    · exact Nat.zero_le _
    · have := startsFrom_bounds hstart
      omega
  have hbehind : ∀ start ∈ startsFrom offset (t.drop offset), ¬ decide (start ≤ offset) = true := by
    intro start hstart
    rw [decide_eq_true_eq]
    have := startsFrom_bounds hstart
    omega
  rw [starts_ofText h, List.filter_append, List.filter_eq_self.mpr hbefore,
    List.filter_eq_nil_iff.mpr hbehind, List.append_nil]

/-- Where the line of an offset starts. -/
def startOf (t : Text) (offset : Nat) : Nat := (0 :: startsFrom 0 (t.take offset)).getLastD 0

/-- It is the last of the starts that are counted. -/
theorem getElem?_startOf (t : Text) (offset : Nat) :
    (0 :: startsFrom 0 (t.take offset))[(t.take offset).count '\n']? = some (startOf t offset) := by
  rw [← length_startsFrom 0, startOf, List.getLastD_eq_getLast?, List.getLast?_eq_getElem?]
  simp

theorem startOf_le (h : offset ≤ t.length) : startOf t offset ≤ offset := by
  have hmem := List.mem_of_getElem? (getElem?_startOf t offset)
  rw [← filter_starts_ofText h] at hmem
  exact of_decide_eq_true (List.mem_filter.mp hmem).2

/-- **From an offset to its place.** The line is counted by the line feeds before the offset, the
column from the start of the line. -/
theorem lineColumn?_ofText (h : offset ≤ t.length) :
    (ofText t).lineColumn? offset
      = some ⟨1 + (t.take offset).count '\n', offset - startOf t offset + 1⟩ := by
  have hwithin : ¬ ((offset : Int) < 0 ∨ (offset : Int) > ((ofText t).length : Nat)) := by
    have hlength : (ofText t).length = t.length := rfl
    omega
  rw [lineColumn?, if_neg hwithin]
  simp only [Int.toNat_natCast, filter_starts_ofText h, List.length_cons, length_startsFrom,
    startOf, Nat.add_comm 1]

/-- The start of a line, looked up by the number of the line. -/
theorem lineStart_ofText (h : offset ≤ t.length) :
    (ofText t).lineStart (1 + (t.take offset).count '\n' : Nat) = .ok (startOf t offset) := by
  have hplace : ¬ ((1 + (t.take offset).count '\n' : Nat) : Int) ≤ MachineWord.least := by
    rw [MachineWord.least]
    omega
  have hone : (1 : Int) ≤ ((1 + (t.take offset).count '\n' : Nat) : Int) := by omega
  have hzero : (0 : Int) ≤ ((1 + (t.take offset).count '\n' : Nat) : Int) - 1 := by omega
  have hnat : (((1 + (t.take offset).count '\n' : Nat) : Int) - 1).toNat
      = (t.take offset).count '\n' := by omega
  have hwithin : (t.take offset).count '\n' < (0 :: startsFrom 0 (t.take offset)).length := by
    rw [List.length_cons, length_startsFrom]
    omega
  rw [lineStart]
  simp only [if_neg hplace, if_pos hone, if_pos hzero, hnat]
  -- the number of the line does not reach the starts behind the offset
  rw [List.getD_eq_getElem?_getD, starts_ofText h, List.getElem?_append_left hwithin,
    getElem?_startOf, Option.getD_some]

/-- A column in the line of an offset. -/
theorem offsetOf_line (h : offset ≤ t.length) (column : Int) :
    (ofText t).offsetOf (1 + (t.take offset).count '\n' : Nat) column
      = .ok (min (startOf t offset + column) t.length) := by
  have hcount :
      ¬ ((1 + (t.take offset).count '\n' : Nat) : Int) > ((ofText t).lineCount : Nat) := by
    rw [lineCount, starts_ofText h, List.length_append, List.length_cons, length_startsFrom]
    omega
  rw [offsetOf, if_neg hcount, lineStart_ofText h]
  rfl

/-- **And back.** Line and column lead back to the offset. -/
theorem offsetOf_ofText (h : offset ≤ t.length) :
    (ofText t).offsetOf (1 + (t.take offset).count '\n' : Nat)
      ((offset - startOf t offset + 1 : Nat) - 1) = .ok offset := by
  have hstart := startOf_le h
  have hback : min ((startOf t offset : Int) + ((offset - startOf t offset + 1 : Nat) - 1))
      (t.length : Int) = offset := by omega
  rw [offsetOf_line h, hback]

end LineIndex

end Orthography
