/-
Words of a text.

A word is a run of letters and goes on over an apostrophe with letters behind it. So the words of a
text are made of letters and apostrophes (`wordlike_of_mem_scan`), they follow one another
(`scan_pairwise`), and a character of neither kind parts them: the words on its two sides are found
without a look at the other side (`texts_append`).
-/
import Mathlib.Data.List.TakeWhile
import Orthography.Proofs.Text.Runs
import Orthography.Spelling.Word

set_option autoImplicit false

namespace Orthography.Spelling

open Unicode

/-! ## Places of words -/

/-- The words from an offset on stand behind it. -/
theorem le_of_mem_scan {offset : Nat} {t : Text} {word : Nat × Text} (h : word ∈ scan offset t) :
    offset ≤ word.1 := by
  induction offset, t using scan.induct with
  | case1 offset => simp [scan] at h
  | case2 offset c rest hlength ih =>
    rw [scan, hlength] at h
    have := ih h
    omega
  | case3 offset c rest n hlength ih =>
    rw [scan, hlength] at h
    rcases List.mem_cons.mp h with rfl | h
    · exact Nat.le_refl _
    · have := ih h
      omega

/-- Each word ends before those behind it begin. -/
theorem scan_pairwise (offset : Nat) (t : Text) :
    (scan offset t).Pairwise fun word next => word.1 + word.2.length ≤ next.1 := by
  induction offset, t using scan.induct with
  | case1 offset =>
    rw [scan]
    exact List.Pairwise.nil
  | case2 offset c rest hlength ih =>
    rw [scan, hlength]
    exact ih
  | case3 offset c rest n hlength ih =>
    rw [scan, hlength]
    refine List.pairwise_cons.mpr ⟨fun next hnext => ?_, ih⟩
    have hlen : (c :: rest.take n).length ≤ n + 1 := by
      rw [List.length_cons, List.length_take]
      omega
    have hnext := le_of_mem_scan hnext
    show offset + (c :: rest.take n).length ≤ next.1
    omega

/-! ## Characters of words -/

/-- Letters and apostrophes, a letter first. -/
structure Wordlike (w : Text) : Prop where
  chars : ∀ c ∈ w, isLetter c = true ∨ c = '\''
  head : ∃ c ∈ w.head?, isLetter c = true

theorem mem_take_letters {t : Text} {c : Char} (h : c ∈ t.take (t.takeWhile isLetter).length) :
    isLetter c = true := by
  rw [← List.prefix_iff_eq_take.mp (List.takeWhile_prefix isLetter)] at h
  exact List.mem_takeWhile_imp h

theorem mem_take_apostropheLength {t : Text} {c : Char} (h : c ∈ t.take (apostropheLength t)) :
    isLetter c = true ∨ c = '\'' := by
  fun_induction apostropheLength t with
  | case1 => cases h
  | case2 rest letters hletters ih =>
    rw [Nat.add_assoc, Nat.add_comm, List.take_succ_cons, List.take_add, List.mem_cons,
      List.mem_append] at h
    rcases h with rfl | h | h
    · exact Or.inr rfl
    · exact Or.inl (mem_take_letters h)
    · exact ih h
  | case3 => cases h

theorem wordlike_take_wordLength {t : Text} (h : wordLength t ≠ 0) :
    Wordlike (t.take (wordLength t)) := by
  rw [wordLength] at h ⊢
  by_cases hletters : (t.takeWhile isLetter).isEmpty = true
  · rw [if_pos hletters] at h
    exact absurd rfl h
  · rw [if_neg hletters]
    constructor
    · intro c hc
      rw [List.take_add, List.mem_append] at hc
      rcases hc with hc | hc
      · exact Or.inl (mem_take_letters hc)
      · exact mem_take_apostropheLength hc
    · cases t with
      | nil => exact absurd rfl hletters
      | cons c rest =>
        by_cases hc : isLetter c = true
        · refine ⟨c, ?_, hc⟩
          rw [List.takeWhile_cons_of_pos hc, List.length_cons, Nat.add_right_comm,
            List.take_succ_cons]
          rfl
        · rw [List.takeWhile_cons_of_neg hc] at hletters
          exact absurd rfl hletters

/-- **Words.** A word that is found stands in the text where it was found, and it is made of letters
with single apostrophes between them. -/
theorem wordlike_of_mem_scan {offset : Nat} {t : Text} {word : Nat × Text}
    (h : word ∈ scan offset t) :
    Wordlike word.2 ∧ offset ≤ word.1 ∧ word.2 <+: t.drop (word.1 - offset) := by
  induction offset, t using scan.induct with
  | case1 offset => simp [scan] at h
  | case2 offset c rest hlength ih =>
    rw [scan, hlength] at h
    obtain ⟨hword, hle, hprefix⟩ := ih h
    have hplace : word.1 - offset = word.1 - (offset + 1) + 1 := by omega
    refine ⟨hword, by omega, ?_⟩
    rw [hplace, List.drop_succ_cons]
    exact hprefix
  | case3 offset c rest n hlength ih =>
    rw [scan, hlength] at h
    rcases List.mem_cons.mp h with rfl | h
    -- the word that begins here, or one of those behind it
    · have hword := wordlike_take_wordLength (t := c :: rest) (by omega)
      rw [hlength, List.take_succ_cons] at hword
      refine ⟨hword, Nat.le_refl _, ?_⟩
      rw [Nat.sub_self]
      exact List.take_prefix (n + 1) (c :: rest)
    · obtain ⟨hword, hle, hprefix⟩ := ih h
      have hplace : word.1 - offset = n + (word.1 - (offset + (n + 1))) + 1 := by omega
      refine ⟨hword, by omega, ?_⟩
      rw [hplace, List.drop_succ_cons, ← List.drop_drop]
      exact hprefix

/-! ## Lengths of words -/

/-- What is taken lies in the text, behind the first letters as in the whole word. -/
theorem apostropheLength_le (t : Text) : apostropheLength t ≤ t.length := by
  fun_induction apostropheLength t with
  | case1 => exact Nat.zero_le _
  | case2 rest letters hletters ih =>
    have hle : letters.length ≤ rest.length := Text.length_takeWhile_le isLetter rest
    rw [List.length_drop] at ih
    rw [List.length_cons]
    omega
  | case3 => exact Nat.zero_le _

theorem wordLength_le (t : Text) : wordLength t ≤ t.length := by
  have hle := Text.length_takeWhile_le isLetter t
  have hrest := apostropheLength_le (t.drop (t.takeWhile isLetter).length)
  rw [List.length_drop] at hrest
  unfold wordLength
  dsimp only
  split <;> omega

/-- Of a word that begins here, what is left behind its first character lies in the rest. -/
theorem length_le_of_wordLength {c : Char} {rest : Text} {n : Nat}
    (h : wordLength (c :: rest) = n + 1) : n ≤ rest.length := by
  have hle := wordLength_le (c :: rest)
  rw [h, List.length_cons] at hle
  omega

/-! ## Characters between words -/

/-- No word holds the character. -/
def parts (s : Char) : Bool := !isLetter s && s != '\''

section Parts

variable {s : Char} (hs : parts s = true) (r z : Text)

include hs

theorem isLetter_of_parts : isLetter s = false := by
  unfold parts at hs
  grind

/-- What follows the first letters of a word, if it ends before such a character, does not depend on
what stands behind that. -/
theorem apostropheLength_append : apostropheLength (r ++ s :: z) = apostropheLength r := by
  have happ : s ≠ '\'' := by
    unfold parts at hs
    grind
  have hletter := isLetter_of_parts hs
  fun_induction apostropheLength r with
  | case1 rest letters hempty =>
    rw [List.cons_append, apostropheLength]
    simp only [Text.takeWhile_append_cons hletter]
    exact if_pos hempty
  | case2 rest letters hletters ih =>
    rw [List.cons_append, apostropheLength]
    simp only [Text.takeWhile_append_cons hletter]
    rw [if_neg hletters, Text.drop_append_cons (Text.length_takeWhile_le _ _), ih]
  | case3 t hshape =>
    unfold apostropheLength
    split
    · next rest heq =>
      cases t with
      | nil => exact absurd (List.cons.inj heq).1 happ
      | cons c t => exact (hshape t (by grind)).elim
    · rfl

theorem wordLength_append : wordLength (r ++ s :: z) = wordLength r := by
  unfold wordLength
  simp only [Text.takeWhile_append_cons (isLetter_of_parts hs)]
  rw [Text.drop_append_cons (Text.length_takeWhile_le _ _), apostropheLength_append hs]

end Parts

/-- The words of a text without their places. -/
def texts (t : Text) : List Text := (wordsFrom t 0).map (·.2)

@[simp] theorem texts_nil : texts [] = [] := by simp [texts, wordsFrom, scan]

/-- What the words are does not depend on where the text begins. -/
theorem map_snd_scan (offset : Nat) (t : Text) : (scan offset t).map (·.2) = texts t := by
  have hsame (k : Nat) : (scan offset t).map (·.2) = (scan k t).map (·.2) := by
    induction offset, t using scan.induct generalizing k with
    | case1 offset => simp [scan]
    | case2 offset c rest hlength ih => rw [scan, scan, hlength, ih]
    | case3 offset c rest n hlength ih =>
      rw [scan, scan, hlength, List.map_cons, List.map_cons, ih]
  exact hsame 0

theorem texts_of_none {c : Char} {rest : Text} (h : wordLength (c :: rest) = 0) :
    texts (c :: rest) = texts rest := by
  rw [← map_snd_scan 0, scan, h, map_snd_scan]

theorem texts_of_word {c : Char} {rest : Text} {n : Nat} (h : wordLength (c :: rest) = n + 1) :
    texts (c :: rest) = (c :: rest.take n) :: texts (rest.drop n) := by
  rw [← map_snd_scan 0, scan, h, List.map_cons, map_snd_scan]

theorem texts_cons {s : Char} (hs : parts s = true) (z : Text) : texts (s :: z) = texts z := by
  apply texts_of_none
  simpa [wordLength] using wordLength_append hs [] z

theorem texts_append {s : Char} (hs : parts s = true) (r z : Text) :
    texts (r ++ s :: z) = texts r ++ texts z := by
  induction hlength : r.length using Nat.strongRecOn generalizing r with
  | _ k ih =>
    cases r with
    | nil =>
      rw [List.nil_append, texts_cons hs, texts_nil, List.nil_append]
    | cons c r =>
      have hsame := wordLength_append hs (c :: r) z
      rw [List.length_cons] at hlength
      rw [List.cons_append] at hsame ⊢
      cases hword : wordLength (c :: r) with
      | zero =>
        rw [texts_of_none (hsame.trans hword), texts_of_none hword]
        exact ih r.length (by omega) r rfl
      | succ n =>
        have hle := length_le_of_wordLength hword
        rw [texts_of_word (hsame.trans hword), texts_of_word hword, List.cons_append,
          List.take_append_of_le_length (by omega), Text.drop_append_cons (by omega),
          ih (r.drop n).length (by rw [List.length_drop]; omega) _ rfl]

end Orthography.Spelling
