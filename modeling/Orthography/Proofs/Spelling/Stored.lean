/-
Stored words are accepted.

A vocabulary judges only what can be a word, so a stored word might be refused all the same: as a
lone punctuation mark, as too long, as a number. The words that are found in a text are letters with
apostrophes between them, and in small letters they are so again, of whatever script and however
many characters it takes. So they are no punctuation marks, what is stored is not too long, and of
the texts that read as a number only three are made of such characters: the names of numbers without
digits. A stored word is therefore known unless it is one of these and not let through
(`Vocabulary.knows_iff`). Main statement, `firstMisspellingFrom_unstored`: where a word is reported
that is stored, it is one of these names.
-/
import Mathlib.Data.List.TakeWhile
import Orthography.Proofs.Spelling.Acceptance
import Orthography.Proofs.Unicode.Lower

set_option autoImplicit false

namespace Orthography

/-- Where no character is blank there is nothing to trim. -/
theorem Text.trim_eq_self {blank : Char → Bool} {t : Text} (h : ∀ c ∈ t, blank c = false) :
    Text.trim blank t = t := by
  have hkeep : ∀ {u : Text}, (∀ c ∈ u, blank c = false) → u.dropWhile blank = u := by
    intro u hu
    cases u with
    | nil => rfl
    | cons c rest => rw [List.dropWhile_cons_of_neg (by simp [hu c List.mem_cons_self])]
  rw [trim, hkeep h, hkeep (fun c hc => h c (List.mem_reverse.mp hc)), List.reverse_reverse]

namespace Spelling

open Decimal Unicode

/-! ## Letters in small letters -/

/-- Is the character an ASCII letter, or one beyond ASCII that no number holds? -/
def isVerbal (d : Char) : Bool := if d.toNat < 127 then d.isAlpha else Numeral.plain d = '?'

/-- A character beyond ASCII that is neither a blank nor a digit is read as nothing that a number
could have. -/
theorem isVerbal_of_outside {d : Char} (hd : 127 ≤ d.toNat) (hblank : isBlank d = false)
    (hdigit : decimalRuns.contains d.toNat = false) : isVerbal d = true := by
  have hvalue : decimalValue? d = none := by
    rw [← Runs.isSome_place?, Option.isSome_eq_false_iff, Option.isNone_iff_eq_none] at hdigit
    rw [decimalValue?, hdigit]
    rfl
  rw [isVerbal, if_neg (by omega), Numeral.plain, if_neg (by omega), hblank, hvalue]
  rfl

/-- The small letters in the table are such characters: no row of it touches a run of blanks or of
digits. Letters of ASCII are checked one by one. -/
theorem isVerbal_of_mem_caseRows {row : CaseRow} (hrow : row ∈ caseRows) {n : Nat}
    (hfirst : row.least ≤ n) (hlast : n < row.beyond) : isVerbal (Char.ofNat n) = true := by
  -- two facts about the whole table, and nothing else of it is used
  have hplaces : ∀ row ∈ caseRows, 97 ≤ row.least ∧ row.beyond ≤ 123
      ∨ 127 ≤ row.least ∧ (row.beyond ≤ 0xd800 ∨ 0xdfff < row.least ∧ row.beyond ≤ 0x110000) := by
    decide +kernel
  have hdisjoint : ∀ row ∈ caseRows, ∀ s ∈ blankRuns.stretches 0 ++ decimalRuns.stretches 0,
      s.2 ≤ row.least ∨ row.beyond ≤ s.1 := by decide +kernel
  have houtside : ∀ runs : Runs,
      runs.stretches 0 ⊆ blankRuns.stretches 0 ++ decimalRuns.stretches 0 →
        runs.contains n = false := by
    intro runs hruns
    by_contra hmem
    rw [Bool.not_eq_false] at hmem
    obtain ⟨s, hs, hlo, hhi⟩ := Runs.exists_stretch (Nat.zero_le n) hmem
    rcases hdisjoint row hrow s (hruns hs) with hle | hle <;> omega
  rcases hplaces row hrow with ⟨hlo, hhi⟩ | ⟨hlo, hvalid⟩
  · have hascii : ∀ n < 123, 97 ≤ n → isVerbal (Char.ofNat n) = true := by decide +kernel
    exact hascii n (by omega) (by omega)
  -- beyond ASCII the row keeps off the surrogates, so its places are characters
  · have hchar : n.isValidChar := by
      rcases hvalid with hvalid | ⟨hlow, hhigh⟩
      · exact Or.inl (by omega)
      · exact Or.inr ⟨by omega, by omega⟩
    have hn := toNat_ofNat hchar
    apply isVerbal_of_outside
    · omega
    · rw [isBlank, hn]
      exact houtside _ (List.subset_append_left _ _)
    · rw [hn]
      exact houtside _ (List.subset_append_right _ _)

/-- The small forms of letters. A letter that has none stays itself, and a letter is neither a blank
nor a digit. -/
theorem isVerbal_of_mem_smallForms {c d : Char} (hc : isLetter c = true) (hd : d ∈ smallForms c) :
    isVerbal d = true := by
  by_cases hascii : c.toNat < 128
  · have hcase := of_toNat_lt (P := fun c => isLetter c = true → isVerbal c.toLower = true)
      (by decide +kernel) hascii
    rw [smallForms_of_ascii hascii, List.mem_singleton] at hd
    rw [hd]
    exact hcase hc
  · rcases smallForms_cases (by omega) hd with hd | ⟨row, hrow, n, hfirst, hlast, rfl⟩ | rfl
    · have hall : ['i', '\u0307', 'ς', 'σ'].all isVerbal = true := by decide +kernel
      exact List.all_eq_true.mp hall d hd
    · exact isVerbal_of_mem_caseRows hrow hfirst hlast
    · rw [isLetter, Bool.and_eq_true, Bool.and_eq_true, Bool.not_eq_true', isDecimal,
        if_neg hascii] at hc
      exact isVerbal_of_outside (by omega) (isBlank_of_isWord (by omega) hc.1.1) hc.1.2

/-- A text of letters and apostrophes, in small letters. -/
def Verbal (t : Text) : Prop := ∀ d ∈ t, isVerbal d = true ∨ d = '\''

/-! ## Numbers -/

/-- The character is neither a blank around a number nor a sign, a digit or a mark in one. -/
structure Outside (x : Char) : Prop where
  margin : Numeral.isMargin x = false
  underscore : x ≠ '_'
  sign : x ≠ '+' ∧ x ≠ '-'
  digit : x.isDigit = false
  point : x ≠ '.'

/-- What is read for a letter or an apostrophe. -/
theorem outside_plain {d : Char} (h : isVerbal d = true ∨ d = '\'') :
    Outside (Numeral.plain d) := by
  by_cases hascii : d.toNat < 127
  · have hcase := of_toNat_lt (P := fun d => isVerbal d = true ∨ d = '\'' →
        Numeral.isMargin d = false ∧ d ≠ '_' ∧ (d ≠ '+' ∧ d ≠ '-') ∧ d.isDigit = false ∧ d ≠ '.')
      (by decide +kernel) hascii
    obtain ⟨hmargin, hunderscore, hsign, hdigit, hpoint⟩ := hcase h
    rw [Numeral.plain, if_pos hascii]
    exact ⟨hmargin, hunderscore, hsign, hdigit, hpoint⟩
  · rcases h with hverbal | rfl
    · rw [isVerbal, if_neg hascii, decide_eq_true_eq] at hverbal
      rw [hverbal]
      exact ⟨rfl, by decide, by decide, rfl, by decide⟩
    · exact absurd (by decide) hascii

/-- Without a digit and without a point there are no digits with or without a point. -/
theorem isDigits_eq_false {t : Text} (h : ∀ c ∈ t, Outside c) : Numeral.isDigits t = false := by
  cases t with
  | nil => rfl
  | cons c rest =>
    have hc := h c List.mem_cons_self
    have hwhole : (c :: rest).takeWhile Char.isDigit = [] :=
      List.takeWhile_cons_of_neg (by simp [hc.digit])
    rw [Numeral.isDigits, hwhole]
    simp [hc.point]

/-- Nothing is taken off such a text, and it has no digits. So it is a number by its name only. -/
theorem names_of_accepts_of_outside {t : Text} (h : ∀ x ∈ t.map Numeral.plain, Outside x)
    (haccepts : Numeral.accepts t = true) :
    (t.map Numeral.plain).map Char.toLower ∈ Numeral.names := by
  rw [Numeral.accepts] at haccepts
  generalize t.map Numeral.plain = u at h haccepts
  have htrim : Text.trim Numeral.isMargin u = u := Text.trim_eq_self fun x hx => (h x hx).margin
  have hfilter : u.filter (· != '_') = u := by
    rw [List.filter_eq_self]
    intro x hx
    simpa using (h x hx).underscore
  have hunsigned : Numeral.unsigned u = u := by
    cases u with
    | nil => rfl
    | cons x rest => simp [Numeral.unsigned, (h x List.mem_cons_self).sign]
  rw [htrim, hfilter, hunsigned, isDigits_eq_false h, Bool.and_eq_true, Bool.false_or] at haccepts
  exact List.contains_iff_mem.mp haccepts.2

/-- **Numbers without digits.** A text of letters and apostrophes that reads as a number is one of
the three names. Its letters are those of ASCII: what reads as a digit or a blank in other scripts
is no letter there, and no other character reads as anything. -/
theorem names_of_accepts {t : Text} (ht : Verbal t) (h : Numeral.accepts t = true) :
    lower t ∈ Numeral.names ∧ ∀ d ∈ t, d.toNat < 127 := by
  have houtside : ∀ x ∈ t.map Numeral.plain, Outside x := by
    intro x hx
    obtain ⟨d, hd, rfl⟩ := List.mem_map.mp hx
    exact outside_plain (ht d hd)
  have hname := names_of_accepts_of_outside houtside h
  -- the names are plain ASCII
  have hascii : ∀ d ∈ t, d.toNat < 127 := by
    intro d hd
    by_contra hge
    have hmark : Numeral.plain d = '?' := by
      rcases ht d hd with hverbal | rfl
      · rw [isVerbal, if_neg hge, decide_eq_true_eq] at hverbal
        exact hverbal
      · exact absurd (by decide) hge
    have hnone : ∀ name ∈ Numeral.names, '?' ∉ name := by decide
    exact hnone _ hname (List.mem_map.mpr ⟨'?', List.mem_map.mpr ⟨d, hd, hmark⟩, rfl⟩)
  have hsame : t.map Numeral.plain = t := by
    refine (List.map_congr_left fun d hd => ?_).trans (List.map_id t)
    rw [Numeral.plain, if_pos (hascii d hd)]
    rfl
  rw [hsame] at hname
  refine ⟨?_, hascii⟩
  rw [lower_of_ascii fun d hd => Nat.lt_succ_of_lt (hascii d hd)]
  exact hname

/-! ## What is judged -/

namespace Wordlike

variable {w : Text}

/-- In small letters a word is made of such characters and apostrophes, though it may have become
longer. -/
theorem verbal_lower (h : Wordlike w) : Verbal (lower w) := by
  intro d hd
  obtain ⟨c, hc, hform⟩ := mem_lower hd
  rcases h.chars c hc with hletter | rfl
  · exact Or.inl (isVerbal_of_mem_smallForms hletter hform)
  · refine Or.inr ?_
    rw [smallForms_of_ascii (by decide)] at hform
    exact List.mem_singleton.mp hform

/-- In small letters a word is no lone punctuation mark: its first letter leaves a letter there. -/
theorem not_punctuation (h : Wordlike w) : (lower w).all Text.isPunctuation = false := by
  obtain ⟨c, hhead, hletter⟩ := h.head
  obtain ⟨d, hd, hform⟩ := exists_mem_lower (List.mem_of_mem_head? hhead)
  have hverbal := isVerbal_of_mem_smallForms hletter hform
  rw [List.all_eq_false]
  refine ⟨d, hd, ?_⟩
  rw [isVerbal] at hverbal
  by_cases hascii : d.toNat < 127
  · rw [if_pos hascii] at hverbal
    simp [Text.isPunctuation, Char.isAlphanum, hverbal]
  · simp [Text.isPunctuation, hascii]

/-- In small letters a word reads as a number exactly if it is one of the three names. -/
theorem accepts_lower_iff (h : Wordlike w) :
    Numeral.accepts (lower w) = true ↔ lower w ∈ Numeral.names := by
  constructor
  · intro haccepts
    obtain ⟨hname, hascii⟩ := names_of_accepts h.verbal_lower haccepts
    rwa [lower_lower_of_ascii fun d hd => Nat.lt_succ_of_lt (hascii d hd)] at hname
  · have hnames : ∀ name ∈ Numeral.names, Numeral.accepts name = true := by decide +kernel
    exact hnames _

end Wordlike

namespace Vocabulary

variable {v : Vocabulary} {w : Text}

/-- A word in small letters can be taken for a word if it is one of the three names of numbers: then
it must be let through. Else it can. Its length is no obstacle where one so long is stored. -/
theorem judges_lower_iff (h : Wordlike w) (hlength : (lower w).length ≤ v.longest) :
    judges v.exempt v.longest (lower w) = true
      ↔ (lower w ∈ Numeral.names → lower w ∈ v.exempt) := by
  rw [judges, h.not_punctuation, Bool.and_false, if_neg Bool.false_ne_true, if_neg (by omega),
    Bool.or_eq_true, List.contains_iff_mem, Bool.not_eq_true', ← Bool.not_eq_true,
    h.accepts_lower_iff]
  by_cases hname : lower w ∈ Numeral.names
  · have htwice : ∀ name ∈ Numeral.names, lower name = name := by decide
    simp [hname, htwice _ hname]
  · simp [hname]

/-- **What is stored is known**, but for the names of numbers that are not let through. -/
theorem knows_iff (h : Wordlike w) : v.knows w = true
    ↔ lower w ∈ v.words ∧ (lower w ∈ Numeral.names → lower w ∈ v.exempt) := by
  rw [knows, Bool.and_eq_true, holds, List.contains_iff_mem]
  exact and_congr_right fun hstored => judges_lower_iff h (length_le_longest hstored)

end Vocabulary

/-! ## What is reported -/

/-- A word that is found is what the text has at its place. -/
theorem cut_of_mem_wordsFrom {t : Text} {start : Nat} {word : Nat × Text}
    (h : word ∈ wordsFrom t start) :
    (Span.ofLength word.1 word.2.length).cut t = word.2 := by
  obtain ⟨-, hle, hprefix⟩ := wordlike_of_mem_scan h
  have hplace : start + (word.1 - start) = word.1 := by omega
  rw [List.drop_drop, hplace] at hprefix
  show (t.drop word.1).take (word.1 + word.2.length - word.1) = word.2
  rw [Nat.add_sub_cancel_left]
  exact (List.prefix_iff_eq_take.mp hprefix).symm

/-- What is reported is a word of the text, and if it is stored it is the name of a number that is
not let through. That a word may also be accepted for what stands before its first apostrophe only
takes words out of those that are reported. -/
theorem Oracle.names_of_firstUnknown {v : Vocabulary} {minLength : Int} {t : Text} {start : Nat}
    {span : Span} (h : firstUnknown v minLength t start = some span) :
    (span.start, span.cut t) ∈ wordsFrom t start
      ∧ (lower (span.cut t) ∈ v.words →
        lower (span.cut t) ∈ Numeral.names ∧ lower (span.cut t) ∉ v.exempt) := by
  obtain ⟨⟨offset, w⟩, hfind, rfl⟩ := Option.map_eq_some_iff.mp h
  have hmem := List.mem_of_find?_eq_some hfind
  have hcut : (Span.ofLength offset w.length).cut t = w := cut_of_mem_wordsFrom hmem
  have hfound := List.find?_some hfind
  rw [Bool.and_eq_true, Bool.not_eq_true', Vocabulary.accepts, Bool.or_eq_false_iff] at hfound
  have hunknown : ¬ v.knows w = true := Bool.eq_false_iff.mp hfound.2.1
  rw [Vocabulary.knows_iff (wordlike_of_mem_scan hmem).1] at hunknown
  show (offset, (Span.ofLength offset w.length).cut t) ∈ _ ∧ _
  rw [hcut]
  exact ⟨hmem, fun hstored => Classical.not_imp.mp fun himp => hunknown ⟨hstored, himp⟩⟩

/-- The words of a dictionary, the default words and the given words in small letters are stored. -/
theorem mem_words_addAll_defaultWords {dictionary : Vocabulary} {knownWords : List Text}
    {w : Text} : w ∈ (dictionary.addAll (defaultWords ++ knownWords)).words
      ↔ w ∈ dictionary.words ∨ w ∈ defaultWords ∨ ∃ known ∈ knownWords, w = lower known := by
  have hsmall : defaultWords.map lower = defaultWords := by decide
  rw [Vocabulary.mem_words_addAll, List.map_append, hsmall, List.mem_append, List.mem_map]
  simp only [eq_comm]

/-- **Accepted words are not reported.** Whatever words a dictionary has and whatever numbers it
lets through, whatever words are given and wherever the search starts: what is reported is one word
of the text. If it is stored, by the dictionary or as a default word or as a given one, it is one of
the names `nan`, `inf` and `infinity`, and that name is not let through. So where all three are,
nothing that is stored is reported; where `nan` alone is, nothing but the other two. Every
vocabulary that an oracle is made with is built this way (`vocabularyFor_eq_ok_iff`). -/
theorem firstMisspellingFrom_unstored {dictionary : Vocabulary} {knownWords : List Text}
    {minLength distance start : Int} {t : Text} {span : Span}
    (h : (Oracle.ofVocabulary (dictionary.addAll (defaultWords ++ knownWords)) minLength
        distance).firstMisspellingFrom t start = .ok (some span)) :
    (span.start, span.cut t) ∈ wordsFrom t start.toNat
      ∧ (lower (span.cut t) ∈ dictionary.words ∨ lower (span.cut t) ∈ defaultWords
          ∨ (∃ known ∈ knownWords, lower (span.cut t) = lower known) →
        lower (span.cut t) ∈ ["nan", "inf", "infinity"].map String.toList
          ∧ lower (span.cut t) ∉ dictionary.exempt) := by
  rw [Oracle.firstMisspellingFrom, startOffset] at h
  by_cases hword : MachineWord.holds start = true
  · rw [if_pos hword] at h
    obtain ⟨hmem, hnames⟩ := Oracle.names_of_firstUnknown (Except.ok.inj h)
    rw [mem_words_addAll_defaultWords, Vocabulary.exempt_addAll] at hnames
    exact ⟨hmem, hnames⟩
  · rw [if_neg hword] at h
    cases h

/-- A number without digits that is let through, a capital that takes two small characters, and an
apostrophe: these words are given, and `inch` is the first that is not. -/
theorem firstMisspellingFrom_unstored_names :
    let dictionary : Vocabulary := { exempt := ["nan".toList] }
    let knownWords := ["NaN".toList, "İ".toList]
    (Oracle.ofVocabulary (dictionary.addAll (defaultWords ++ knownWords)) 1 2).firstMisspellingFrom
        "nan İ nan's inch".toList (-1) = .ok (some (Span.ofLength 12 4))
      ∧ (12, "inch".toList) ∈ wordsFrom "nan İ nan's inch".toList 0
      ∧ "inch".toList ∉ defaultWords ∧ ∀ known ∈ knownWords, "inch".toList ≠ lower known := by
  intro dictionary knownWords
  have hfirst : (Oracle.ofVocabulary (dictionary.addAll (defaultWords ++ knownWords)) 1
      2).firstMisspellingFrom "nan İ nan's inch".toList (-1)
        = .ok (some (Span.ofLength 12 4)) := by decide +kernel
  obtain ⟨hmem, hnames⟩ := firstMisspellingFrom_unstored hfirst
  have hcut : lower ((Span.ofLength 12 4).cut "nan İ nan's inch".toList) = "inch".toList := by
    decide +kernel
  rw [hcut] at hnames
  have hnumber : "inch".toList ∉ ["nan", "inf", "infinity"].map String.toList := by decide
  refine ⟨hfirst, hmem, fun hdefault => ?_, fun known hknown hsame => ?_⟩
  · exact hnumber (hnames (Or.inr (Or.inl hdefault))).1
  · exact hnumber (hnames (Or.inr (Or.inr ⟨known, hknown, hsame⟩))).1

/-- Where `nan` alone is let through, `inf` is reported although it is given, and so stored. Where
all three names are let through, nothing is. -/
theorem firstMisspellingFrom_of_inf :
    let given (exempt : List Text) : Vocabulary :=
      ({ exempt := exempt } : Vocabulary).addAll (defaultWords ++ ["inf".toList])
    let first (exempt : List Text) :=
      (Oracle.ofVocabulary (given exempt) 2 2).firstMisspellingFrom "inf".toList 0
    lower "inf".toList ∈ (given ["nan".toList]).words
      ∧ first ["nan".toList] = .ok (some (Span.ofLength 0 3))
      ∧ (Span.ofLength 0 3).cut "inf".toList = "inf".toList
      ∧ first (["nan", "inf", "infinity"].map String.toList) = .ok none := by
  decide +kernel

end Spelling

end Orthography
