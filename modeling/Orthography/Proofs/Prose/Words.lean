/-
Where a text is cut into words.

The cut is told by single characters: at a breaking character a word begins, and any other character
goes on with the word before it. So a text that is taken apart anywhere has the words of its two
parts, or, if the second part begins with a character that does not break, the same words with the
two that meet joined. These two laws, `words_append_of_breaks` and `words_append_of_joins`, fix the
words of every text. Main statement, `words_segmentation`: with them, what the words hold, where
their capitals stand and how many there are, and that one run over the text that goes on with the
last word or begins one makes the same words.
-/
import Mathlib.Data.List.Induction
import Mathlib.Data.List.TakeWhile
import Orthography.Prose.Words

set_option autoImplicit false

namespace Orthography.Prose

open Unicode

/-! ## The word at the beginning -/

section Beginning

variable {c d : Char} {t first : Text} {more : List Text}

/-- A word that begins with a character that breaks nothing begins with it as it is. -/
theorem seed_of_joins (h : breaks c = false) : seed c = [c] := by
  rw [breaks, Bool.or_eq_false_iff] at h
  rw [seed, h.1, h.2]
  rfl

@[simp] theorem words_nil : words [] = [] := by
  rw [words]

theorem words_singleton (c : Char) : words [c] = [seed c] := by
  rw [words]
  simp

/-- Before a breaking character a word ends. -/
theorem words_cons_of_breaks (c : Char) (h : ∀ d ∈ t.head?, breaks d = true) :
    words (c :: t) = seed c :: words t := by
  cases t with
  | nil => rw [words_singleton, words_nil]
  | cons d t =>
    have hd := h d rfl
    rw [words, List.takeWhile_cons_of_neg (by simp [hd]), List.dropWhile_cons_of_neg (by simp [hd]),
      List.append_nil]

/-- Any other character goes on with the word. -/
theorem words_cons_of_joins (c : Char) (hd : breaks d = false)
    (h : words (d :: t) = first :: more) : words (c :: d :: t) = (seed c ++ first) :: more := by
  rw [words, seed_of_joins hd] at h
  obtain ⟨rfl, rfl⟩ := List.cons.inj h
  rw [words, List.takeWhile_cons_of_pos (by simp [hd]), List.dropWhile_cons_of_pos (by simp [hd])]
  rfl

theorem exists_words_cons (c : Char) (t : Text) : ∃ first more, words (c :: t) = first :: more := by
  rw [words]
  exact ⟨_, _, rfl⟩

theorem exists_last_words (c : Char) (t : Text) : ∃ init last, words (c :: t) = init ++ [last] := by
  obtain ⟨first, more, hwords⟩ := exists_words_cons c t
  rw [hwords]
  exact ⟨_, _, (List.dropLast_concat_getLast (List.cons_ne_nil first more)).symm⟩

end Beginning

/-! ## Two texts, one behind the other -/

/-- Where the second text begins with a breaking character, their words follow one another. -/
theorem words_append_of_breaks (a : Text) {b : Text} (hb : ∀ c ∈ b.head?, breaks c = true) :
    words (a ++ b) = words a ++ words b := by
  induction a with
  | nil => rw [List.nil_append, words_nil, List.nil_append]
  | cons c a ih =>
    cases a with
    | nil =>
      rw [List.singleton_append, words_cons_of_breaks c hb, words_singleton]
      rfl
    | cons d a =>
      rw [List.cons_append] at ih ⊢
      rw [List.cons_append]
      cases hd : breaks d with
      | true =>
        rw [words_cons_of_breaks c (by simpa using hd), words_cons_of_breaks c (by simpa using hd),
          ih, List.cons_append]
      | false =>
        obtain ⟨first, more, hwords⟩ := exists_words_cons d a
        rw [hwords, List.cons_append] at ih
        rw [words_cons_of_joins c hd hwords, words_cons_of_joins c hd ih, List.cons_append]

/-- Else the last word of the first text and the first word of the second one are joined. Together
with `words_append_of_breaks` this says all there is to say of words, and what follows rests on the
two. -/
theorem words_append_of_joins {a b : Text} {d : Char} (hd : breaks d = false)
    {init more : List Text} {last first : Text} (ha : words a = init ++ [last])
    (hb : words (d :: b) = first :: more) :
    words (a ++ d :: b) = init ++ (last ++ first) :: more := by
  induction a generalizing init last with
  | nil => simp at ha
  | cons c a ih =>
    cases a with
    | nil =>
      rw [words_singleton, List.singleton_eq_append_iff] at ha
      simp only [List.cons_ne_nil, and_false, or_false, List.cons.injEq, and_true] at ha
      obtain ⟨rfl, rfl⟩ := ha
      exact words_cons_of_joins c hd hb
    | cons e a =>
      rw [List.cons_append] at ih ⊢
      rw [List.cons_append]
      obtain ⟨next, later, hwords⟩ := exists_words_cons e a
      cases he : breaks e with
      | true =>
        rw [words_cons_of_breaks c (by simpa using he)] at ha ⊢
        cases init with
        | nil => simp [hwords] at ha
        | cons w init =>
          obtain ⟨rfl, hrest⟩ := List.cons.inj ha
          rw [ih hrest, List.cons_append]
      | false =>
        -- the first word of `e :: a` gets the character, wherever the texts meet
        rw [words_cons_of_joins c he hwords] at ha
        cases init with
        | nil =>
          obtain ⟨rfl, rfl⟩ := List.cons.inj ha
          have hjoined := @ih [] _ hwords
          rw [List.nil_append] at hjoined
          rw [words_cons_of_joins c he hjoined, List.append_assoc, List.nil_append]
        | cons w init =>
          obtain ⟨rfl, rfl⟩ := List.cons.inj ha
          have hjoined := @ih (next :: init) _ hwords
          rw [List.cons_append] at hjoined
          rw [words_cons_of_joins c he hjoined, List.cons_append]

/-! ## One run over the text -/

/-- A character more: a capital begins a word, another breaking character an empty one, and any
other character goes into the last word, if there is one. -/
def extend (ws : List Text) (c : Char) : List Text :=
  if isUpper c then ws ++ [[c]]
  else if separates c then ws ++ [[]]
  else match ws.getLast? with
    | some last => ws.dropLast ++ [last ++ [c]]
    | none => [[c]]

theorem extend_of_breaks (ws : List Text) {c : Char} (h : breaks c = true) :
    extend ws c = ws ++ [seed c] := by
  unfold extend seed
  unfold breaks at h
  grind

theorem extend_of_joins (init : List Text) (last : Text) {c : Char} (h : breaks c = false) :
    extend (init ++ [last]) c = init ++ [last ++ [c]] := by
  rw [breaks, Bool.or_eq_false_iff] at h
  simp [extend, h.1, h.2]

/-- One more character at the end does to the words what the loop does. So the loop is the cutting,
by induction from the right. -/
theorem words_concat (t : Text) (c : Char) : words (t ++ [c]) = extend (words t) c := by
  cases hc : breaks c with
  | true =>
    rw [words_append_of_breaks t (by simpa using hc), words_singleton, extend_of_breaks _ hc]
  | false =>
    have hown : words [c] = [[c]] := by rw [words_singleton, seed_of_joins hc]
    cases t with
    | nil =>
      rw [breaks, Bool.or_eq_false_iff] at hc
      simp [hown, extend, hc.1, hc.2]
    | cons d t =>
      obtain ⟨init, last, hlast⟩ := exists_last_words d t
      rw [words_append_of_joins hc hlast hown, hlast, extend_of_joins _ _ hc]

/-- The words are made in one run over the text. -/
theorem words_eq_foldl (t : Text) : words t = t.foldl extend [] := by
  induction t using List.reverseRecOn with
  | nil => rw [words_nil, List.foldl_nil]
  | append_singleton t c ih =>
    rw [words_concat, ih, List.foldl_append, List.foldl_cons, List.foldl_nil]

/-! ## What the words hold -/

theorem breaks_of_mem_takeWhile {t : Text} {c : Char} (h : c ∈ t.takeWhile (!breaks ·)) :
    breaks c = false := by
  simpa using List.mem_takeWhile_imp h

theorem all_breaks_head?_dropWhile (t : Text) :
    (t.dropWhile (!breaks ·)).head?.all breaks = true := by
  have hnot := List.head?_dropWhile_not (!breaks ·) t
  cases hhead : (t.dropWhile (!breaks ·)).head? with
  | none => rfl
  | some c =>
    rw [hhead] at hnot
    simpa using hnot

/-- The words hold the text without its breaking characters that are no capitals. -/
theorem flatten_words (t : Text) :
    (words t).flatten = t.filter fun c => !(breaks c && !isUpper c) := by
  fun_induction words t with
  | case1 => rfl
  | case2 c rest ih =>
    have hrun : (rest.takeWhile (!breaks ·)).filter (fun c => !(breaks c && !isUpper c))
        = rest.takeWhile (!breaks ·) := by
      rw [List.filter_eq_self]
      intro d hd
      simp [breaks_of_mem_takeWhile hd]
    have hseed : [c].filter (fun c => !(breaks c && !isUpper c)) = seed c := by
      cases hupper : isUpper c <;> cases hseparates : separates c <;>
        simp [seed, breaks, hupper, hseparates]
    have hsplit : c :: rest
        = [c] ++ (rest.takeWhile (!breaks ·) ++ rest.dropWhile (!breaks ·)) := by
      rw [List.takeWhile_append_dropWhile, List.singleton_append]
    rw [hsplit, List.filter_append, List.filter_append, hrun, hseed, ← ih, List.flatten_cons,
      List.append_assoc]

/-- A capital begins its word. So a word with a capital anywhere else would have been cut there. -/
theorem isUpper_of_mem_tail {t w : Text} (hw : w ∈ words t) :
    ∀ c ∈ w.tail, isUpper c = false := by
  fun_induction words t with
  | case1 => cases hw
  | case2 c rest ih =>
    rcases List.mem_cons.mp hw with rfl | hw
    · intro d hd
      have hrun : d ∈ rest.takeWhile (!breaks ·) := by
        unfold seed at hd
        split at hd
        · exact hd
        · exact List.mem_of_mem_tail hd
      have hbreaks := breaks_of_mem_takeWhile hrun
      rw [breaks, Bool.or_eq_false_iff] at hbreaks
      exact hbreaks.1
    · exact ih hw

/-- There are as many words as breaking characters, and one more if none of them begins the text. -/
theorem length_words (t : Text) :
    (words t).length = t.countP breaks + if t.head?.all breaks then 0 else 1 := by
  fun_induction words t with
  | case1 => rfl
  | case2 c rest ih =>
    -- in a word only the first character breaks
    have hrun : (rest.takeWhile (!breaks ·)).countP breaks = 0 := by
      rw [List.countP_eq_zero]
      intro d hd
      simp [breaks_of_mem_takeWhile hd]
    have hrest : rest.countP breaks = (rest.dropWhile (!breaks ·)).countP breaks := by
      conv_lhs => rw [← List.takeWhile_append_dropWhile (p := (!breaks ·)) (l := rest)]
      rw [List.countP_append, hrun, Nat.zero_add]
    rw [if_pos (all_breaks_head?_dropWhile rest), Nat.add_zero, ← hrest] at ih
    rw [List.length_cons, ih, List.countP_cons]
    cases hc : breaks c <;> simp [hc]

theorem length_words_cons (c : Char) (t : Text) :
    (words (c :: t)).length = t.countP breaks + 1 := by
  rw [length_words, List.countP_cons]
  cases hc : breaks c <;> simp [hc]

/-- **Words.** Where the second of two texts is empty or begins with a breaking character, the words
of both together are those of the first and then those of the second. Where it begins with another
character and the first text is not empty, the words that meet are joined to one. So the words hold
the text without its breaking characters that are no capitals, no word has a capital behind its
first character, and there are as many words as breaking characters, and one more if the text begins
with another character. One run over the text, which begins a word or goes on with the last one,
makes them. -/
theorem words_segmentation :
    (∀ a b : Text, (∀ c ∈ b.head?, breaks c = true) → words (a ++ b) = words a ++ words b)
      ∧ (∀ (a b : Text) (d : Char), a ≠ [] → breaks d = false →
        ∃ init last first more, words a = init ++ [last] ∧ words (d :: b) = first :: more
          ∧ words (a ++ d :: b) = init ++ (last ++ first) :: more)
      ∧ ∀ t : Text, (words t).flatten = t.filter (fun c => !(breaks c && !isUpper c))
        ∧ (∀ w ∈ words t, ∀ c ∈ w.tail, isUpper c = false)
        ∧ (words t).length
          = t.countP breaks + (if t.head?.all breaks then 0 else 1)
        ∧ words t = t.foldl extend [] := by
  refine ⟨words_append_of_breaks, fun a b d ha hd => ?_, fun t =>
    ⟨flatten_words t, fun w => isUpper_of_mem_tail, length_words t, words_eq_foldl t⟩⟩
  obtain ⟨c, a, rfl⟩ := List.exists_cons_of_ne_nil ha
  obtain ⟨init, last, hlast⟩ := exists_last_words c a
  obtain ⟨first, more, hfirst⟩ := exists_words_cons d b
  exact ⟨init, last, first, more, hlast, hfirst, words_append_of_joins hd hlast hfirst⟩

/-- A cut before a roman numeral, which is a capital and a number, and one in the middle of a word,
where the first part ends in a boundary. -/
theorem words_segmentation_numeral :
    (∀ c ∈ "Ⅷ_Bc".toList.head?, breaks c = true)
      ∧ words ("ab".toList ++ "Ⅷ_Bc".toList) = words "ab".toList ++ words "Ⅷ_Bc".toList
      ∧ "v1".toList ≠ [] ∧ breaks 'x' = false
      ∧ ∃ init last first more, words "v1".toList = init ++ [last]
        ∧ words ('x' :: "y_z".toList) = first :: more
        ∧ words ("v1".toList ++ 'x' :: "y_z".toList) = init ++ (last ++ first) :: more := by
  have hbreaks : ∀ c ∈ "Ⅷ_Bc".toList.head?, breaks c = true := by
    rintro c ⟨⟩
    decide +kernel
  exact ⟨hbreaks, words_segmentation.1 _ _ hbreaks, by decide, by decide,
    words_segmentation.2.1 "v1".toList "y_z".toList 'x' (by decide) (by decide)⟩

end Orthography.Prose
