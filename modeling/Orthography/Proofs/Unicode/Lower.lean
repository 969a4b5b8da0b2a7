/-
What lower-casing makes of single characters.

Where a sigma stands decides its small form, and one capital has two small characters, so
lower-casing is no map over a text. But each character of the result is a small form of one of the
text, and each character of the text leaves one of its small forms there (`mem_lower`,
`exists_mem_lower`). Properties of the characters of a text in small letters are thereby properties
of small forms, of which the tables have finitely many. One such property is that small letters of
ASCII stay as they are when they are lower-cased once more (`lower_lower_of_ascii`).
-/
import Mathlib.Data.List.Basic
import Orthography.Unicode.Blank
import Orthography.Unicode.Lower
import Orthography.Unicode.Word

set_option autoImplicit false

namespace Orthography.Unicode

/-! ## Tables as stretches -/

/-- The runs of a table whose first gap is counted from `base`, each by its first member and the
number behind its last one. -/
def Runs.stretches (base : Nat) : Runs → List (Nat × Nat)
  | [] => []
  | (gap, len) :: rest =>
    (base + gap, base + gap + len) :: stretches (base + gap + len) rest

theorem Runs.exists_stretch {runs : Runs} {base n : Nat} (hbase : base ≤ n)
    (h : runs.contains (n - base) = true) :
    ∃ s ∈ runs.stretches base, s.1 ≤ n ∧ n < s.2 := by
  induction runs generalizing base with
  | nil => cases h
  | cons run rest ih =>
    obtain ⟨gap, len⟩ := run
    rw [contains] at h
    by_cases hgap : n - base < gap
    · rw [if_pos hgap] at h
      cases h
    · rw [if_neg hgap] at h
      by_cases hrun : n - base < gap + len
      · refine ⟨_, List.mem_cons_self, ?_, ?_⟩
        · show base + gap ≤ n
          omega
        · show n < base + gap + len
          omega
      · rw [if_neg hrun] at h
        have hplace : n - (base + gap + len) = n - base - (gap + len) := by omega
        rw [← hplace] at h
        obtain ⟨s, hs, hn⟩ := ih (by omega) h
        exact ⟨s, List.mem_cons_of_mem _ hs, hn⟩

/-! ## Classes of characters -/

/-- What holds of the characters below a bound is checked number by number. -/
theorem of_toNat_lt {P : Char → Prop} {bound : Nat} (h : ∀ n < bound, P (Char.ofNat n)) {c : Char}
    (hc : c.toNat < bound) : P c := by
  have hcase := h c.toNat hc
  rwa [Char.ofNat_toNat] at hcase

/-- The number of a character that is given by its number. -/
theorem toNat_ofNat {n : Nat} (h : n.isValidChar) : (Char.ofNat n).toNat = n := by
  rw [Char.ofNat, dif_pos h]
  rfl

/-- Blanks beyond ASCII are no word characters. -/
theorem isBlank_of_isWord {c : Char} (hc : 128 ≤ c.toNat) (h : isWord c = true) :
    isBlank c = false := by
  have hdisjoint : ∀ s ∈ blankRuns.stretches 0, ∀ r ∈ wordRuns.stretches 128,
      s.2 ≤ r.1 ∨ r.2 ≤ s.1 := by decide +kernel
  by_contra hblank
  rw [Bool.not_eq_false, isBlank] at hblank
  rw [isWord, if_neg (by omega)] at h
  obtain ⟨s, hs, hfirst, hlast⟩ := Runs.exists_stretch (n := c.toNat) (Nat.zero_le _) hblank
  obtain ⟨r, hr, hfirst', hlast'⟩ := Runs.exists_stretch (n := c.toNat) hc h
  rcases hdisjoint s hs r hr with hle | hle <;> omega

/-! ## Small forms -/

/-- What a character may become in small letters. -/
def smallForms (c : Char) : Text := if c = 'Σ' then ['ς', 'σ'] else lowerChar c

theorem lowerChar_ne_nil (c : Char) : lowerChar c ≠ [] := by
  unfold lowerChar
  split
  · simp
  · split
    · simp
    · split <;> simp

theorem smallForms_of_ascii {c : Char} (h : c.toNat < 128) : smallForms c = [c.toLower] := by
  have hsigma : c ≠ 'Σ' := by
    rintro rfl
    revert h
    decide
  rw [smallForms, if_neg hsigma, lowerChar, if_pos h]

theorem lower_of_ascii {t : Text} (h : ∀ c ∈ t, c.toNat < 128) : lower t = t.map Char.toLower := by
  rw [lower, if_pos]
  simpa using h

theorem mem_lowerAfter {cased : Bool} {t : Text} {d : Char} (h : d ∈ lowerAfter cased t) :
    ∃ c ∈ t, d ∈ smallForms c := by
  induction t generalizing cased with
  | nil => cases h
  | cons c rest ih =>
    rw [lowerAfter] at h
    by_cases hsigma : c = 'Σ'
    · rw [if_pos hsigma] at h
      rcases List.mem_cons.mp h with rfl | h
      · refine ⟨c, List.mem_cons_self, ?_⟩
        rw [smallForms, if_pos hsigma]
        split <;> simp
      · obtain ⟨c', hc', hd⟩ := ih h
        exact ⟨c', List.mem_cons_of_mem _ hc', hd⟩
    · rw [if_neg hsigma] at h
      rcases List.mem_append.mp h with h | h
      · refine ⟨c, List.mem_cons_self, ?_⟩
        rwa [smallForms, if_neg hsigma]
      · obtain ⟨c', hc', hd⟩ := ih h
        exact ⟨c', List.mem_cons_of_mem _ hc', hd⟩

theorem exists_mem_lowerAfter (cased : Bool) {t : Text} {c : Char} (h : c ∈ t) :
    ∃ d ∈ lowerAfter cased t, d ∈ smallForms c := by
  induction t generalizing cased with
  | nil => cases h
  | cons c' rest ih =>
    rw [lowerAfter]
    by_cases hsigma : c' = 'Σ'
    · rw [if_pos hsigma]
      rcases List.mem_cons.mp h with rfl | h
      · refine ⟨_, List.mem_cons_self, ?_⟩
        rw [smallForms, if_pos hsigma]
        split <;> simp
      · obtain ⟨d, hd, hform⟩ := ih _ h
        exact ⟨d, List.mem_cons_of_mem _ hd, hform⟩
    · rw [if_neg hsigma]
      rcases List.mem_cons.mp h with rfl | h
      · obtain ⟨d, hd⟩ := List.exists_mem_of_ne_nil _ (lowerChar_ne_nil c)
        refine ⟨d, List.mem_append_left _ hd, ?_⟩
        rwa [smallForms, if_neg hsigma]
      · obtain ⟨d, hd, hform⟩ := ih _ h
        exact ⟨d, List.mem_append_right _ hd, hform⟩

/-- **What comes from what.** A character of a text in small letters is a small form of a character
of the text. -/
theorem mem_lower {t : Text} {d : Char} (h : d ∈ lower t) : ∃ c ∈ t, d ∈ smallForms c := by
  by_cases hascii : t.all (·.toNat < 128) = true
  · rw [lower, if_pos hascii] at h
    obtain ⟨c, hc, rfl⟩ := List.mem_map.mp h
    refine ⟨c, hc, ?_⟩
    have hlt := List.all_eq_true.mp hascii c hc
    rw [smallForms_of_ascii (of_decide_eq_true hlt)]
    exact List.mem_singleton_self _
  · rw [lower, if_neg hascii] at h
    exact mem_lowerAfter h

/-- And a character of the text leaves one of its small forms. -/
theorem exists_mem_lower {t : Text} {c : Char} (h : c ∈ t) : ∃ d ∈ lower t, d ∈ smallForms c := by
  by_cases hascii : t.all (·.toNat < 128) = true
  · have hlt := List.all_eq_true.mp hascii c h
    rw [lower, if_pos hascii]
    refine ⟨c.toLower, List.mem_map_of_mem h, ?_⟩
    rw [smallForms_of_ascii (of_decide_eq_true hlt)]
    exact List.mem_singleton_self _
  · rw [lower, if_neg hascii]
    exact exists_mem_lowerAfter false h

/-! ## The small forms in the table -/

namespace CaseRow

/-- The first small letter of a row. -/
def least (row : CaseRow) : Nat := ((row.first : Int) + row.shift).toNat

/-- The number behind its last small letter. -/
def beyond (row : CaseRow) : Nat := row.least + row.count * row.stride

end CaseRow

/-- A small form of a character beyond ASCII is special or in the table, or it is the character
itself. -/
theorem smallForms_cases {c d : Char} (hc : 128 ≤ c.toNat) (h : d ∈ smallForms c) :
    d ∈ ['i', '\u0307', 'ς', 'σ']
      ∨ (∃ row ∈ caseRows, ∃ n, row.least ≤ n ∧ n < row.beyond ∧ d = Char.ofNat n) ∨ d = c := by
  rw [smallForms] at h
  by_cases hsigma : c = 'Σ'
  · rw [if_pos hsigma] at h
    exact Or.inl (List.subset_append_right ['i', '\u0307'] ['ς', 'σ'] h)
  · rw [if_neg hsigma, lowerChar, if_neg (by omega)] at h
    by_cases hdotted : c = 'İ'
    · rw [if_pos hdotted] at h
      exact Or.inl (List.subset_append_left ['i', '\u0307'] ['ς', 'σ'] h)
    · rw [if_neg hdotted] at h
      cases hfind : caseRows.find? (·.covers c.toNat) with
      | none =>
        rw [hfind] at h
        exact Or.inr (Or.inr (List.mem_singleton.mp h))
      | some row =>
        rw [hfind] at h
        have hrow := List.mem_of_find?_eq_some hfind
        -- no small letter lies before the beginning of the code space
        have hshift : ∀ row ∈ caseRows, 0 ≤ (row.first : Int) + row.shift := by decide +kernel
        have hleast := hshift row hrow
        have hcovers := List.find?_some hfind
        rw [CaseRow.covers, Bool.and_eq_true, Bool.and_eq_true, decide_eq_true_eq,
          decide_eq_true_eq] at hcovers
        obtain ⟨⟨hfirst, hlast⟩, -⟩ := hcovers
        refine Or.inr (Or.inl ⟨row, hrow, _, ?_, ?_, List.mem_singleton.mp h⟩)
        · rw [CaseRow.least]
          omega
        · rw [CaseRow.beyond, CaseRow.least]
          omega

/-! ## Plain small letters -/

/-- Among the small forms no character of ASCII is a capital: the tables start at `a`, and what is
left as it is beyond ASCII stays beyond it. -/
theorem toLower_of_mem_smallForms {c d : Char} (h : d ∈ smallForms c) (hd : d.toNat < 128) :
    d.toLower = d := by
  by_cases hc : c.toNat < 128
  · have htwice := of_toNat_lt (P := fun c => c.toLower.toLower = c.toLower) (by decide +kernel) hc
    rw [smallForms_of_ascii hc, List.mem_singleton] at h
    rw [h]
    exact htwice
  · rcases smallForms_cases (by omega) h with hspecial | ⟨row, hrow, n, hleast, -, rfl⟩ | rfl
    · have hall : ['i', '\u0307', 'ς', 'σ'].all (fun d => d.toLower = d) = true := by decide +kernel
      exact of_decide_eq_true (List.all_eq_true.mp hall d hspecial)
    · have hplaces : ∀ row ∈ caseRows, 97 ≤ row.least := by decide +kernel
      have hsmall : ∀ n, n < 128 → 97 ≤ n → (Char.ofNat n).toLower = Char.ofNat n := by
        decide +kernel
      by_cases hvalid : n.isValidChar
      · rw [toNat_ofNat hvalid] at hd
        exact hsmall n hd (Nat.le_trans (hplaces row hrow) hleast)
      · rw [Char.ofNat, dif_neg hvalid]
        rfl
    · exact absurd hd hc

/-- A text in small letters that is plain ASCII is in small letters for good. -/
theorem lower_lower_of_ascii {t : Text} (h : ∀ d ∈ lower t, d.toNat < 128) :
    lower (lower t) = lower t := by
  rw [lower_of_ascii h]
  refine (List.map_congr_left fun d hd => ?_).trans (List.map_id _)
  obtain ⟨c, -, hform⟩ := mem_lower hd
  exact toLower_of_mem_smallForms hform (h d hd)

end Orthography.Unicode
