/-
The words of a text are what the search for one pattern finds.

A word is letters, and again letters behind an apostrophe, as often as there are. All of them are
taken at the first try, since nothing that follows could fail (`head?_lengths_wordPattern`). The
pattern looks at no character before the place where it is tried; so a search from the middle of a
text finds there what a search from its beginning does (`scan_eq_found`).
-/
import Orthography.Proofs.Prose.Pattern
import Orthography.Proofs.Spelling.Words

set_option autoImplicit false

namespace Orthography.Spelling

open Prose
open Prose.Pattern

/-- Letters, and letters behind an apostrophe any number of times. -/
def wordPattern : Pattern :=
  seq (run isLetter) (many (seq (fixed ['\'']) (run isLetter)))

/-- The letters behind apostrophes are measured by `apostropheLength`, as labels are behind their
dots. -/
theorem measuresLabels_apostrophe : MeasuresLabels '\'' isLetter apostropheLength where
  mark rest := by rw [apostropheLength]
  other t h := by
    unfold apostropheLength
    split
    · exact (h rfl).elim
    · rfl

/-- **A word is the first try of its pattern.** -/
theorem head?_lengths_wordPattern (before : Option Char) (t : Text) :
    (wordPattern.lengths before t).head?
      = if wordLength t = 0 then none else some (wordLength t) := by
  have hletters := head?_lengths_run (p := isLetter) before t
  rw [wordPattern, wordLength]
  by_cases hempty : (t.takeWhile isLetter).isEmpty = true
  · rw [if_pos hempty, List.head?_eq_none_iff] at hletters
    rw [if_pos hempty, lengths_seq_of_nil hletters]
    rfl
  · rw [if_neg hempty, List.head?_eq_some_iff] at hletters
    obtain ⟨shorter, hlengths⟩ := hletters
    have hpos : 0 < (t.takeWhile isLetter).length :=
      List.length_pos_of_ne_nil (by simpa using hempty)
    rw [if_neg hempty, if_neg (by omega), head?_lengths_seq, hlengths, List.findSome?_cons,
      head?_lengths_many_labels measuresLabels_apostrophe]
    rfl

/-- **The words of a text** are what the search for their pattern finds, whatever stands before. The
search may ask for the character before a place, but this pattern has no boundary in it. -/
theorem scan_eq_found (before : Option Char) (offset : Nat) (t : Text) :
    scan offset t = wordPattern.found before offset t := by
  induction offset, t using scan.induct generalizing before with
  | case1 offset => rw [scan, found]
  | case2 offset c rest hlength ih =>
    have hfirst := head?_lengths_wordPattern before (c :: rest)
    rw [if_pos hlength] at hfirst
    rw [scan, hlength, found, hfirst]
    exact ih _
  | case3 offset c rest n hlength ih =>
    have hfirst := head?_lengths_wordPattern before (c :: rest)
    rw [if_neg (by omega), hlength] at hfirst
    rw [scan, hlength, found, hfirst]
    exact congrArg _ (ih _)

end Orthography.Spelling
