/-
Accepting more words.

A vocabulary that gets more words accepts what it accepted before: the words stay, and what is too
long to be a word is measured by the longest one, which does not shrink. So the oracle that judges
by it passes over words and never stops at a new one. Of one text it finds the same word first, or a
word that stands wholly behind it, or none (`Oracle.isLaxer_ofVocabulary`).
-/
import Orthography.Proofs.Spelling.Words
import Orthography.Spelling.Oracle

set_option autoImplicit false

namespace Orthography.Spelling

/-! ## Words that are added -/

namespace Vocabulary

variable {v v' : Vocabulary}

/-- One more occurrence makes its word one of the words. -/
theorem mem_bump {x w : Text} {entries : List (Text × Nat)} :
    x ∈ (bump w entries).map (·.1) ↔ x = w ∨ x ∈ entries.map (·.1) := by
  induction entries with
  | nil => simp [bump]
  | cons entry rest ih =>
    obtain ⟨other, n⟩ := entry
    rw [bump]
    by_cases hw : other = w
    · simp [hw]
    · rw [if_neg hw, List.map_cons, List.mem_cons, ih, List.map_cons, List.mem_cons]
      exact or_left_comm

/-- The words are those that were there and those that were added, in small letters. -/
theorem mem_words_addAll {x : Text} (ws : List Text) :
    x ∈ (v.addAll ws).words ↔ x ∈ v.words ∨ x ∈ ws.map Unicode.lower := by
  rw [addAll]
  induction ws generalizing v with
  | nil => simp
  | cons w rest ih =>
    have hadd : x ∈ (v.add w).words ↔ x = Unicode.lower w ∨ x ∈ v.words := mem_bump
    rw [List.foldl_cons, ih, hadd, List.map_cons, List.mem_cons, or_assoc]
    exact or_left_comm

/-- What is let through is settled before the words come in. -/
@[simp] theorem exempt_addAll (v : Vocabulary) (ws : List Text) :
    (v.addAll ws).exempt = v.exempt := by
  rw [addAll]
  induction ws generalizing v with
  | nil => rfl
  | cons w rest ih => rw [List.foldl_cons, ih, add]

/-- The greatest length among some words. -/
theorem foldl_max_le_iff {ws : List Text} {n bound : Nat} :
    ws.foldl (fun n w => max n w.length) n ≤ bound ↔ n ≤ bound ∧ ∀ w ∈ ws, w.length ≤ bound := by
  induction ws generalizing n with
  | nil => simp
  | cons w rest ih => rw [List.foldl_cons, ih, Nat.max_le, List.forall_mem_cons, and_assoc]

/-- No word is longer than the longest one. -/
theorem length_le_longest {w : Text} (h : w ∈ v.words) : w.length ≤ v.longest :=
  (foldl_max_le_iff.mp (Nat.le_refl v.longest)).2 w h

theorem longest_le_longest (h : v.words ⊆ v'.words) : v.longest ≤ v'.longest :=
  foldl_max_le_iff.mpr ⟨Nat.zero_le _, fun _ hw => length_le_longest (h hw)⟩

/-! ## What is accepted -/

/-- A vocabulary grows into another one: words come in, and more of them may be let through although
they read as numbers. Nothing that counted as a word stops counting as one. -/
structure Grows (v v' : Vocabulary) : Prop where
  words : v.words ⊆ v'.words
  exempt : v.exempt ⊆ v'.exempt

/-- What can be a word still can where longer words are known. -/
theorem judges_mono {exempt exempt' : List Text} {longest longest' : Nat} {w : Text}
    (hexempt : exempt ⊆ exempt') (hlongest : longest ≤ longest')
    (hw : judges exempt longest w = true) : judges exempt' longest' w = true := by
  rw [judges] at hw ⊢
  split at hw
  · cases hw
  · split at hw
    · cases hw
    · next hmark hlength =>
      rw [if_neg hmark, if_neg (by omega)]
      rw [Bool.or_eq_true, List.contains_iff_mem] at hw ⊢
      exact hw.imp_left fun hmem => hexempt hmem

/-- What is known stays known: it is still stored, it is no longer than before, and what is let
through still is. -/
theorem knows_mono (h : v.Grows v') {w : Text} (hw : v.knows w = true) : v'.knows w = true := by
  rw [knows, Bool.and_eq_true] at hw ⊢
  refine ⟨?_, judges_mono h.exempt (longest_le_longest h.words) hw.2⟩
  rw [holds, List.contains_iff_mem] at hw ⊢
  exact h.words hw.1

/-- What is accepted stays accepted, by itself or by what stands before its first apostrophe. -/
theorem accepts_mono (h : v.Grows v') {w : Text} (hw : v.accepts w = true) :
    v'.accepts w = true := by
  rw [accepts, Bool.or_eq_true, Bool.and_eq_true] at hw ⊢
  rcases hw with hw | ⟨happ, hw⟩
  · exact Or.inl (knows_mono h hw)
  · exact Or.inr ⟨happ, knows_mono h hw⟩

end Vocabulary

/-! ## Oracles -/

/-- The first member with a property comes no later than the first with a stronger one. The order of
the list says what later means. -/
theorem find?_of_imp {α : Type} {l : List α} {r : α → α → Prop} (hl : l.Pairwise r)
    {weak strong : α → Bool} (himp : ∀ a, strong a = true → weak a = true) {b : α}
    (h : l.find? strong = some b) : ∃ a, l.find? weak = some a ∧ (a = b ∨ r a b) := by
  induction l with
  | nil => cases h
  | cons a rest ih =>
    obtain ⟨hbehind, hrest⟩ := List.pairwise_cons.mp hl
    rw [List.find?_cons] at h ⊢
    by_cases hstrong : strong a = true
    · rw [hstrong] at h
      rw [himp a hstrong]
      obtain rfl := Option.some.inj h
      exact ⟨a, rfl, Or.inl rfl⟩
    · rw [Bool.eq_false_iff.mpr hstrong] at h
      by_cases hweak : weak a = true
      · rw [hweak]
        exact ⟨a, rfl, Or.inr (hbehind b (List.mem_of_find?_eq_some h))⟩
      · rw [Bool.eq_false_iff.mpr hweak]
        exact ih hrest h

namespace Oracle

/-- The first oracle is laxer than the second: whatever it finds first in a text, the second one
finds too, or something before it. -/
def IsLaxer (lax strict : Oracle) : Prop :=
  ∀ t start found, lax.firstMisspelling t start = some found →
    ∃ sooner, strict.firstMisspelling t start = some sooner
      ∧ (sooner = found ∨ sooner.stop ≤ found.start)

/-- With more words to accept, and with more words too short to be checked, an oracle is laxer. It
passes over more words and stops at no new one, so it stops at the same word or at one behind. -/
theorem isLaxer_ofVocabulary {v v' : Vocabulary} (hgrows : v.Grows v') {m m' : Int}
    (hm : m ≤ m') (distance distance' : Int) :
    IsLaxer (ofVocabulary v' m' distance') (ofVocabulary v m distance) := by
  intro t start found hfound
  have himp : ∀ word : Nat × Text,
      (decide (m' ≤ word.2.length) && !v'.accepts word.2) = true →
        (decide (m ≤ word.2.length) && !v.accepts word.2) = true := by
    intro word hword
    rw [Bool.and_eq_true, decide_eq_true_eq, Bool.not_eq_true'] at hword ⊢
    refine ⟨by omega, Bool.eq_false_iff.mpr fun haccepts => ?_⟩
    rw [Vocabulary.accepts_mono hgrows haccepts] at hword
    cases hword.2
  obtain ⟨word, hword, rfl⟩ := Option.map_eq_some_iff.mp hfound
  obtain ⟨sooner, hsooner, hbefore⟩ := find?_of_imp (scan_pairwise start (t.drop start)) himp hword
  refine ⟨Span.ofLength sooner.1 sooner.2.length, ?_, ?_⟩
  · exact Option.map_eq_some_iff.mpr ⟨sooner, hsooner, rfl⟩
  · rcases hbefore with rfl | hbefore
    · exact Or.inl rfl
    · exact Or.inr hbefore

end Oracle

/-! ## Dictionaries -/

/-- The dictionary of a language. -/
def dictionaryFor (dictionaries : Dictionaries) (language : String) :
    Except LanguageError Vocabulary :=
  if language.isEmpty then .ok {}
  else
    match dictionaries.lookup (String.ofList (Unicode.lower language.toList)) with
    | some dictionary => .ok dictionary
    | none => .error (if language.toList.contains '\x00' then .badName else .unknown language)

/-- Default and given words are added to the dictionary of the language, if there is one. So every
vocabulary that is made is a dictionary with words added to it. -/
theorem vocabularyFor_eq_ok_iff {dictionaries : Dictionaries} {language : String}
    {ws : List Text} {v : Vocabulary} :
    vocabularyFor dictionaries language ws = .ok v
      ↔ ∃ dictionary, dictionaryFor dictionaries language = .ok dictionary
        ∧ dictionary.addAll (defaultWords ++ ws) = v := by
  rw [vocabularyFor, dictionaryFor]
  by_cases hempty : language.isEmpty = true
  · simp [hempty]
  · rw [if_neg hempty, if_neg hempty]
    cases dictionaries.lookup (String.ofList (Unicode.lower language.toList)) with
    | none => simp
    | some dictionary => simp

/-- There is a vocabulary with more words to accept where there is one with less. Giving words
cannot make a language unknown. -/
theorem exists_vocabularyFor_append {dictionaries : Dictionaries} {language : String}
    {ws : List Text} {v : Vocabulary} (h : vocabularyFor dictionaries language ws = .ok v)
    (more : List Text) :
    ∃ v', vocabularyFor dictionaries language (ws ++ more) = .ok v' ∧ v.Grows v' := by
  obtain ⟨dictionary, hdictionary, rfl⟩ := vocabularyFor_eq_ok_iff.mp h
  refine ⟨_, vocabularyFor_eq_ok_iff.mpr ⟨dictionary, hdictionary, rfl⟩, ?_, ?_⟩
  · intro x hx
    rw [Vocabulary.mem_words_addAll] at hx ⊢
    rw [← List.append_assoc, List.map_append, List.mem_append, ← or_assoc]
    exact Or.inl hx
  · rw [Vocabulary.exempt_addAll, Vocabulary.exempt_addAll]
    exact List.Subset.refl _

end Orthography.Spelling
