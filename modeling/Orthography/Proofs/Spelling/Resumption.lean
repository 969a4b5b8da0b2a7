/-
Asking an oracle on and on.

Whoever wants all misspelled words of a text asks for the first one, then for the first one behind
it, until there is none. Every question starts the search for words anew, in the middle of the text.
A word is found without a look at what stands before it and ends where the next search begins, so
what is found behind a word is the rest of the words (`wordsFrom_behind`). One question thus takes
the first place off the list of misspelled words and leaves the others (`misspelled_eq`), and a run
of questions takes them all, each once (`finds_iff`). Main statement, `finds_matches`, in terms of
one search for the pattern of words.
-/
import Orthography.Proofs.Spelling.Pattern
import Orthography.Spelling.Oracle

set_option autoImplicit false

namespace Orthography.Spelling

/-! ## Words behind a word -/

theorem le_of_scan_eq {offset : Nat} {t : Text} {sooner behind : List (Nat × Text)}
    {word : Nat × Text} (h : scan offset t = sooner ++ word :: behind) : offset ≤ word.1 := by
  apply le_of_mem_scan (t := t)
  rw [h]
  exact List.mem_append_right sooner List.mem_cons_self

/-- Behind a word the search goes on as if it began there. A word ends at no letter, so no word is
cut by beginning anew at its end. -/
theorem scan_behind {offset : Nat} {t : Text} {sooner behind : List (Nat × Text)}
    {word : Nat × Text} (h : scan offset t = sooner ++ word :: behind) :
    behind = scan (word.1 + word.2.length) (t.drop (word.1 + word.2.length - offset)) := by
  induction offset, t using scan.induct generalizing sooner with
  | case1 offset => simp [scan] at h
  | case2 offset c rest hlength ih =>
    rw [scan, hlength] at h
    have hlater := le_of_scan_eq h
    -- the search is one place further on, and the word still lies ahead of it
    have hdrop : word.1 + word.2.length - offset = word.1 + word.2.length - (offset + 1) + 1 := by
      omega
    rw [hdrop, List.drop_succ_cons]
    exact ih h
  | case3 offset c rest n hlength ih =>
    have hle := length_le_of_wordLength hlength
    rw [scan, hlength] at h
    cases sooner with
    | nil =>
      -- the word asked for is the one that was just found
      obtain ⟨rfl, rfl⟩ := List.cons.inj h
      have hword : (c :: rest.take n).length = n + 1 := by
        rw [List.length_cons, List.length_take_of_le hle]
      dsimp only
      rw [hword, Nat.add_sub_cancel_left, List.drop_succ_cons]
    | cons first sooner =>
      have hrest := (List.cons.inj h).2
      have hlater := le_of_scan_eq hrest
      have hdrop : word.1 + word.2.length - offset
          = n + (word.1 + word.2.length - (offset + (n + 1))) + 1 := by omega
      rw [hdrop, List.drop_succ_cons, ← List.drop_drop]
      exact ih hrest

/-- **Resumption.** A search that begins behind a word finds the words that come after it. -/
theorem wordsFrom_behind {t : Text} {start : Nat} {sooner behind : List (Nat × Text)}
    {word : Nat × Text} (h : wordsFrom t start = sooner ++ word :: behind) :
    behind = wordsFrom t (word.1 + word.2.length) := by
  have hplace := le_of_scan_eq h
  have hbehind := scan_behind h
  rw [List.drop_drop] at hbehind
  have hdrop : start + (word.1 + word.2.length - start) = word.1 + word.2.length := by omega
  rwa [hdrop] at hbehind

namespace Oracle

/-! ## Questions -/

/-- The place of a word in its text. -/
def place (word : Nat × Text) : Span := Span.ofLength word.1 word.2.length

/-- Asked from an offset on, each time behind what it found last, the oracle finds these spans and
then no more. -/
inductive Finds (o : Oracle) (t : Text) : Nat → List Span → Prop
  | done {start : Nat} (h : o.firstMisspelling t start = none) : Finds o t start []
  | next {start : Nat} {span : Span} {rest : List Span}
      (h : o.firstMisspelling t start = some span) (hrest : Finds o t span.stop rest) :
      Finds o t start (span :: rest)

variable {v : Vocabulary} {minLength distance : Int} {t : Text} {start : Nat}

/-- Is the word long enough to be looked at, and not accepted? -/
def reports (v : Vocabulary) (minLength : Int) (word : Nat × Text) : Bool :=
  minLength ≤ word.2.length && !v.accepts word.2

/-- The places of the misspelled words from an offset on. -/
def misspelled (v : Vocabulary) (minLength : Int) (t : Text) (start : Nat) : List Span :=
  ((wordsFrom t start).filter (reports v minLength)).map place

theorem firstUnknown_eq_find? : firstUnknown v minLength t start
    = ((wordsFrom t start).find? (reports v minLength)).map place := rfl

/-- One question takes off the first place: what it answers is the first misspelled word, and behind
that word the others are found as before. -/
theorem misspelled_eq : misspelled v minLength t start
    = match firstUnknown v minLength t start with
      | none => []
      | some span => span :: misspelled v minLength t span.stop := by
  rw [firstUnknown_eq_find?]
  cases hfound : (wordsFrom t start).find? (reports v minLength) with
  | none =>
    have hnone : (wordsFrom t start).filter (reports v minLength) = [] :=
      List.filter_eq_nil_iff.mpr (List.find?_eq_none.mp hfound)
    rw [misspelled, hnone]
    rfl
  | some word =>
    obtain ⟨hword, sooner, behind, hwords, hpassed⟩ := List.find?_eq_some_iff_append.mp hfound
    have hsooner : sooner.filter (reports v minLength) = [] :=
      List.filter_eq_nil_iff.mpr fun other hother => by simpa using hpassed other hother
    rw [misspelled, hwords, List.filter_append, hsooner, List.nil_append,
      List.filter_cons_of_pos hword, wordsFrom_behind hwords]
    rfl

/-- A run of questions finds all misspelled words. There is exactly one run from any place on, and
it ends, because each word that is found is not empty. -/
theorem finds_iff {spans : List Span} : Finds (ofVocabulary v minLength distance) t start spans
    ↔ spans = misspelled v minLength t start := by
  constructor
  · intro h
    induction h with
    | done h =>
      rw [misspelled_eq, show firstUnknown v minLength t _ = none from h]
    | next h hrest ih =>
      rw [misspelled_eq, show firstUnknown v minLength t _ = some _ from h, ih]
  · intro h
    -- each question takes one place off the list, so the list says when the last one is asked
    induction spans generalizing start with
    | nil =>
      cases hfound : firstUnknown v minLength t start with
      | none => exact Finds.done hfound
      | some span =>
        rw [misspelled_eq, hfound] at h
        cases h
    | cons span rest ih =>
      cases hfound : firstUnknown v minLength t start with
      | none =>
        rw [misspelled_eq, hfound] at h
        cases h
      | some first =>
        rw [misspelled_eq, hfound] at h
        obtain ⟨rfl, hrest⟩ := List.cons.inj h
        exact Finds.next hfound (ih hrest)

/-! ## Places -/

theorem place_bounds {word : Nat × Text} (h : word ∈ wordsFrom t 0) :
    (place word).start < (place word).stop ∧ (place word).stop ≤ t.length := by
  obtain ⟨hword, -, hprefix⟩ := wordlike_of_mem_scan h
  obtain ⟨c, hc, -⟩ := hword.head
  have hpos : 0 < word.2.length := by
    apply List.length_pos_of_ne_nil
    rintro hnil
    rw [hnil] at hc
    cases hc
  have hle := hprefix.length_le
  rw [Nat.sub_zero, List.drop_zero, List.length_drop] at hle
  show word.1 < word.1 + word.2.length ∧ word.1 + word.2.length ≤ t.length
  omega

theorem misspelled_pairwise : (misspelled v minLength t start).Pairwise (·.stop ≤ ·.start) :=
  List.pairwise_map.mpr ((scan_pairwise start (t.drop start)).filter _)

/-- What is looked at and not accepted, in terms of what the vocabulary knows. -/
theorem reports_eq (word : Nat × Text) : reports v minLength word
    = decide (minLength ≤ word.2.length ∧ v.knows word.2 = false
        ∧ ('\'' ∈ word.2 → v.knows (word.2.takeWhile (· != '\'')) = false)) := by
  rw [reports, Vocabulary.accepts]
  by_cases happ : '\'' ∈ word.2
  · simp [happ, Bool.decide_and]
  · simp [happ, Bool.decide_and]

/-- **Nothing is lost between questions.** Asked on and on, the oracle finds in the end exactly the
places of those matches in one search for words that are long enough and known neither as a whole
nor, if there is an apostrophe, up to the first one. The places follow one another, and at each of
them there is a word. -/
theorem finds_matches (v : Vocabulary) (minLength distance : Int) (t : Text) :
    ∃ spans : List Span,
      (∀ found, Finds (ofVocabulary v minLength distance) t 0 found ↔ found = spans)
      ∧ spans = ((wordPattern.found none 0 t).filter fun word =>
          minLength ≤ word.2.length ∧ v.knows word.2 = false
            ∧ ('\'' ∈ word.2 → v.knows (word.2.takeWhile (· != '\'')) = false)).map
          (fun word => Span.ofLength word.1 word.2.length)
      ∧ (∀ span ∈ spans, span.start < span.stop ∧ span.stop ≤ t.length)
      ∧ spans.Pairwise (·.stop ≤ ·.start) := by
  refine ⟨misspelled v minLength t 0, fun found => finds_iff, ?_, ?_, misspelled_pairwise⟩
  · have hwords : wordsFrom t 0 = wordPattern.found none 0 t := scan_eq_found none 0 t
    rw [misspelled, hwords]
    congr 2
    funext word
    exact reports_eq word
  · intro span hspan
    obtain ⟨word, hword, rfl⟩ := List.mem_map.mp hspan
    exact place_bounds (List.mem_of_mem_filter hword)

end Oracle

end Orthography.Spelling
