/-
The lines of a text.

A line has its line feed at its end and nowhere else (`OneLine`), and only the last line can lack
one. So a text that ends its last line can be followed by another one, line by line
(`lines_append`), and reading a text line by line is cutting off its first line again and again
(`lines_eq_cons`).
-/
import Mathlib.Data.List.Basic
import Orthography.Text.Basic

set_option autoImplicit false

namespace Orthography

namespace Text

/-! ## One line -/

/-- Line feeds stand at the end of the text only. -/
def OneLine (t : Text) : Prop := '\n' ∉ t.dropLast

/-- A line begins at the offset. -/
def BeginsLine (t : Text) (offset : Nat) : Prop :=
  offset = 0 ∨ (t.take offset).getLast? = some '\n'

variable {t : Text}

theorem OneLine.of_suffix {part : Text} (h : t.OneLine) (hpart : part <:+ t) : part.OneLine := by
  obtain ⟨before, rfl⟩ := hpart
  cases part with
  | nil => simp [OneLine]
  | cons c rest =>
    intro hmem
    refine h ?_
    rw [List.dropLast_append_of_ne_nil (by simp)]
    exact List.mem_append_right _ hmem

theorem OneLine.drop (h : t.OneLine) (n : Nat) : OneLine (t.drop n) :=
  h.of_suffix (List.drop_suffix n t)

/-- Behind a line feed nothing is left of the line. -/
theorem OneLine.eq_nil (before : Text) {rest : Text} (h : OneLine (before ++ '\n' :: rest)) :
    rest = [] := by
  by_contra hne
  refine h ?_
  have hcons : before ++ '\n' :: rest = (before ++ ['\n']) ++ rest := by simp
  rw [hcons, List.dropLast_append_of_ne_nil hne]
  simp

/-! ## All lines -/

theorem lines_eq_nil (h : t.lines = []) : t = [] := by
  have hflat := flatten_lines t
  rw [h] at hflat
  exact hflat.symm

theorem lines_cons_of_ne {c : Char} {line : Text} {rest : List Text} (hc : c ≠ '\n')
    (h : t.lines = line :: rest) : lines (c :: t) = (c :: line) :: rest := by
  rw [lines, if_neg hc, h]

/-- The first line, and the lines of what is behind it. -/
theorem lines_eq_cons {line : Text} {rest : List Text} (h : t.lines = line :: rest) :
    line ≠ [] ∧ line.OneLine ∧ (rest ≠ [] → line.getLast? = some '\n')
      ∧ lines (t.drop line.length) = rest := by
  induction t generalizing line rest with
  | nil => cases h
  | cons c t ih =>
    by_cases hc : c = '\n'
    · rw [lines, if_pos hc] at h
      obtain ⟨rfl, rfl⟩ := List.cons.inj h
      subst hc
      exact ⟨by simp, by simp [OneLine], fun _ => rfl, rfl⟩
    · cases hlines : lines t with
      | nil =>
        rw [lines, if_neg hc, hlines] at h
        obtain ⟨rfl, rfl⟩ := List.cons.inj h
        refine ⟨by simp, by simp [OneLine], fun hne => absurd rfl hne, ?_⟩
        rw [lines_eq_nil hlines]
        rfl
      | cons first more =>
        rw [lines_cons_of_ne hc hlines] at h
        obtain ⟨rfl, rfl⟩ := List.cons.inj h
        obtain ⟨hne, hone, hends, hbehind⟩ := ih hlines
        refine ⟨by simp, ?_, fun hmore => ?_, hbehind⟩
        · rw [OneLine, List.dropLast_cons_of_ne_nil hne, List.mem_cons, not_or]
          exact ⟨Ne.symm hc, hone⟩
        · rw [List.getLast?_cons, hends hmore]
          rfl

/-- There are as many lines as line feeds, and one more if the text does not end its last line. An
empty text has no lines. -/
theorem length_lines (t : Text) :
    t.lines.length = t.count '\n' + if t = [] ∨ t.getLast? = some '\n' then 0 else 1 := by
  induction t with
  | nil => rfl
  | cons c t ih =>
    by_cases hc : c = '\n'
    -- the line feed is a line of its own here, so only what is behind it matters
    · have hlast : t = [] ∨ t.getLast? = some '\n' ↔ (c :: t).getLast? = some '\n' := by
        cases t with
        | nil => simp [hc]
        | cons d t => simp
      rw [lines, if_pos hc, List.length_cons, ih, hc, List.count_cons_self]
      simp only [hlast, hc, List.cons_ne_nil, false_or]
      omega
    · rw [List.count_cons_of_ne hc]
      cases hlines : lines t with
      | nil =>
        obtain rfl := lines_eq_nil hlines
        simp [lines, hc]
      | cons line rest =>
        have hne : t ≠ [] := by
          rintro rfl
          cases hlines
        obtain ⟨d, t, rfl⟩ := List.exists_cons_of_ne_nil hne
        rw [lines_cons_of_ne hc hlines, List.length_cons, ← List.length_cons, ← hlines, ih]
        simp

/-- A text that is one line has that line. -/
theorem mem_lines_of_oneLine (h : t.OneLine) {line : Text} (hline : line ∈ t.lines) :
    line = t := by
  cases hlines : t.lines with
  | nil => rw [hlines] at hline; cases hline
  | cons first rest =>
    obtain ⟨-, -, hends, hbehind⟩ := lines_eq_cons hlines
    have hflat := flatten_lines t
    rw [hlines, List.flatten_cons] at hflat
    cases rest with
    | nil =>
      rw [hlines, List.mem_singleton] at hline
      simpa [hline] using hflat
    | cons second more =>
      -- a second line stands behind a line feed
      obtain ⟨init, hinit⟩ := List.getLast?_eq_some_iff.mp (hends (by simp))
      have hnil : (second :: more).flatten = [] := by
        refine OneLine.eq_nil init ?_
        rw [← hflat, hinit, List.append_assoc] at h
        exact h
      have hsecond := (lines_eq_cons hbehind).1
      rw [List.flatten_cons, List.append_eq_nil_iff] at hnil
      exact absurd hnil.1 hsecond

/-- Behind a whole line the lines begin anew. So reading line by line and cutting the rest into
lines come to the same. -/
theorem lines_append {more : Text} (h : t = [] ∨ t.getLast? = some '\n') :
    lines (t ++ more) = t.lines ++ more.lines := by
  induction t with
  | nil => rfl
  | cons c t ih =>
    have hrest : t = [] ∨ t.getLast? = some '\n' := by
      cases t with
      | nil => exact Or.inl rfl
      | cons d t => simpa using h
    rw [List.cons_append]
    by_cases hc : c = '\n'
    · rw [lines, lines, if_pos hc, if_pos hc, ih hrest, List.cons_append]
    · cases hlines : lines t with
      | nil =>
        -- no line feed would end the text
        rw [lines_eq_nil hlines] at h
        simp [hc] at h
      | cons first rest =>
        have hboth : lines (t ++ more) = first :: (rest ++ more.lines) := by
          rw [ih hrest, hlines, List.cons_append]
        rw [lines_cons_of_ne hc hboth, lines_cons_of_ne hc hlines, List.cons_append]

end Text

end Orthography
