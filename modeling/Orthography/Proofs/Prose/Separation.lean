/-
Words on both sides of a separator.

A character that is neither a word character nor an apostrophe stands in no word of the oracle, and
what is done to a text before the oracle sees it keeps that: pairs become spaces, and a word that
begins gets a space before it. Main statement, `spoken_append`: the words of two adjoining texts are
those of the first and then those of the second, if the second does not begin in the middle of a
word. So a space or a backslash at its beginning adds none (`spoken_space`, `spoken_slash`).
-/
import Orthography.Proofs.Prose.Words
import Orthography.Proofs.Spelling.Words

set_option autoImplicit false

namespace Orthography.Prose

/-! ## Pairs -/

theorem replacePair_cons_of_ne {a b new c : Char} {t : Text} (h : c ≠ a ∨ t.head? ≠ some b) :
    Text.replacePair a b new (c :: t) = c :: Text.replacePair a b new t := by
  cases t with
  | nil => rfl
  | cons d t =>
    rw [Text.replacePair, if_neg]
    rintro ⟨rfl, rfl⟩
    simp at h

/-- A pair is looked for on its own in two parts of a text, unless it lies across. Nothing else can
be across, since a pair has two characters. -/
theorem replacePair_append {a b new : Char} (u v : Text) (hv : v.head? ≠ some b) :
    Text.replacePair a b new (u ++ v)
      = Text.replacePair a b new u ++ Text.replacePair a b new v := by
  fun_induction Text.replacePair a b new u with
  | case1 => rfl
  | case2 c =>
    rw [List.singleton_append, replacePair_cons_of_ne (Or.inr hv), List.singleton_append]
  | case3 c d rest hpair ih =>
    rw [List.cons_append, List.cons_append, Text.replacePair, if_pos hpair, ih, List.cons_append]
  | case4 c d rest hpair ih =>
    rw [List.cons_append, List.cons_append, Text.replacePair, if_neg hpair, ← List.cons_append, ih,
      List.cons_append]

/-- What is at the beginning was there before, or it is new. -/
theorem mem_head?_replacePair {a b new d : Char} {t : Text}
    (hd : d ∈ (Text.replacePair a b new t).head?) : d ∈ t.head? ∨ d = new := by
  fun_cases Text.replacePair a b new t with
  | case1 => exact Or.inl hd
  | case2 c => exact Or.inl hd
  | case3 c e rest hpair =>
    rw [Text.replacePair, if_pos hpair] at hd
    exact Or.inr (Option.some.inj hd).symm
  | case4 c e rest hpair =>
    rw [Text.replacePair, if_neg hpair] at hd
    exact Or.inl hd

/-- The text begins with neither letter of a pair. -/
def Unpaired (t : Text) : Prop := t.head? ≠ some 'n' ∧ t.head? ≠ some 't'

/-- Taking out the pairs of one kind makes none of the other kind at the beginning. -/
theorem Unpaired.replacePair {t : Text} (h : Unpaired t) :
    (Text.replacePair '\\' 'n' ' ' t).head? ≠ some 't' := by
  intro ht
  rcases mem_head?_replacePair ht with ht | hspace
  · exact h.2 ht
  · exact absurd hspace (by decide)

/-- Pairs are found on the two sides of a place by themselves, if none begins with the last
character before it. -/
theorem spaceEscapes_append (u : Text) {v : Text} (hv : Unpaired v) :
    spaceEscapes (u ++ v) = spaceEscapes u ++ spaceEscapes v := by
  unfold spaceEscapes
  rw [replacePair_append u v hv.1, replacePair_append _ _ hv.replacePair]

theorem spaceEscapes_cons {c : Char} {t : Text} (h : c ≠ '\\' ∨ Unpaired t) :
    spaceEscapes (c :: t) = c :: spaceEscapes t := by
  unfold spaceEscapes
  rw [replacePair_cons_of_ne (h.imp_right And.left),
    replacePair_cons_of_ne (h.imp_right Unpaired.replacePair)]

theorem spaceEscapes_pair {c : Char} (hc : c = 'n' ∨ c = 't') (t : Text) :
    spaceEscapes ('\\' :: c :: t) = ' ' :: spaceEscapes t := by
  unfold spaceEscapes
  rcases hc with rfl | rfl
  · rw [Text.replacePair, if_pos ⟨rfl, rfl⟩, replacePair_cons_of_ne (Or.inl (by decide))]
  · have hother : Text.replacePair '\\' 'n' ' ' ('\\' :: 't' :: t)
        = '\\' :: 't' :: Text.replacePair '\\' 'n' ' ' t := by
      rw [replacePair_cons_of_ne (Or.inr (by simp)), replacePair_cons_of_ne (Or.inl (by decide))]
    rw [hother, Text.replacePair, if_pos ⟨rfl, rfl⟩]

/-! ## Joined words -/

/-- What a character leaves behind the first one. -/
def spread (c : Char) : Text := if breaks c then ' ' :: seed c else [c]

theorem flatMap_spread_eq_self {w : Text} (hw : ∀ d ∈ w, breaks d = false) :
    w.flatMap spread = w := by
  induction w with
  | nil => rfl
  | cons d w ih =>
    rw [List.flatMap_cons, ih fun e he => hw e (List.mem_cons_of_mem d he), spread,
      hw d List.mem_cons_self, if_neg Bool.false_ne_true, List.singleton_append]

/-- Every character but the first leaves what it leaves, whatever stands before it. So cutting into
words and joining them again can be described character by character (`spread`). -/
theorem intercalate_words_cons (c : Char) (t : Text) :
    List.intercalate [' '] (words (c :: t)) = seed c ++ t.flatMap spread := by
  induction t generalizing c with
  | nil => simp [words_singleton, List.intercalate]
  | cons d t ih =>
    obtain ⟨first, more, hwords⟩ := exists_words_cons d t
    have hlater := ih d
    rw [List.flatMap_cons, spread]
    cases hd : breaks d with
    | true =>
      rw [hwords] at hlater
      rw [words_cons_of_breaks c (by simpa using hd), hwords, List.intercalate_cons_cons, hlater,
        if_pos rfl]
      simp
    | false =>
      rw [hwords, seed_of_joins hd] at hlater
      have hglued : List.intercalate [' '] ((seed c ++ first) :: more)
          = seed c ++ List.intercalate [' '] (first :: more) := by
        cases more <;> simp [List.intercalate]
      rw [words_cons_of_joins c hd hwords, hglued, hlater, if_neg Bool.false_ne_true]

/-! ## Words of a text without links -/

/-- The words of a text that has no links left. -/
def spoken (t : Text) : List Text :=
  Spelling.texts (List.intercalate [' '] (words (spaceEscapes t)))

/-- A character that parts words parts them as well in the text that is spread. -/
theorem texts_spread_cons {s : Char} (hs : Spelling.parts s = true) (x y : Text) :
    Spelling.texts (x ++ (s :: y).flatMap spread)
      = Spelling.texts x ++ Spelling.texts (y.flatMap spread) := by
  have hspace : Spelling.parts ' ' = true := by decide
  rw [List.flatMap_cons, spread]
  split
  · rw [List.cons_append, Spelling.texts_append hspace, seed]
    split
    · rw [List.singleton_append, Spelling.texts_cons hs]
    · rw [List.nil_append]
  · rw [List.singleton_append, Spelling.texts_append hs]

/-- What is spoken, with the words of code spread out instead of cut and joined again. -/
theorem spoken_eq (t : Text) : spoken t = Spelling.texts ((spaceEscapes t).flatMap spread) := by
  have hspace : Spelling.parts ' ' = true := by decide
  unfold spoken
  cases spaceEscapes t with
  | nil =>
    rw [words]
    rfl
  | cons c rest =>
    rw [intercalate_words_cons, List.flatMap_cons, spread]
    split
    · rw [List.cons_append, Spelling.texts_cons hspace]
    · next hbreaks =>
      have hseed : seed c = [c] := by
        rw [seed, if_pos]
        unfold breaks at hbreaks
        grind
      rw [hseed]

/-- **Words of adjoining texts.** A text that does not begin in the middle of a word adds its own
words. -/
theorem spoken_append (u : Text) {v : Text} (hv : ∀ s ∈ v.head?, Spelling.parts s = true) :
    spoken (u ++ v) = spoken u ++ spoken v := by
  have hunpaired : Unpaired v := by
    constructor
    all_goals
      intro hmem
      exact absurd (hv _ hmem) (by decide)
  have hhead : ∀ s ∈ (spaceEscapes v).head?, Spelling.parts s = true := by
    intro s hs
    rcases mem_head?_replacePair hs with hs | rfl
    · rcases mem_head?_replacePair hs with hs | rfl
      · exact hv s hs
      · decide
    · decide
  rw [spoken_eq, spoken_eq, spoken_eq, spaceEscapes_append u hunpaired, List.flatMap_append]
  cases hescaped : spaceEscapes v with
  | nil => simp
  | cons s rest =>
    have hs := hhead s (by rw [hescaped]; rfl)
    have hown := texts_spread_cons hs [] rest
    rw [texts_spread_cons hs, ← List.nil_append ((s :: rest).flatMap spread), hown]
    simp

theorem spoken_cons {s : Char} (hs : Spelling.parts s = true) {t t' : Text}
    (h : spaceEscapes t = s :: spaceEscapes t') : spoken t = spoken t' := by
  have hown := texts_spread_cons hs [] (spaceEscapes t')
  rw [spoken_eq, spoken_eq, h]
  simpa using hown

theorem spoken_space (t : Text) : spoken (' ' :: t) = spoken t :=
  spoken_cons (by decide) (spaceEscapes_cons (Or.inl (by decide)))

theorem spoken_append_space (u v : Text) : spoken (u ++ ' ' :: v) = spoken u ++ spoken v := by
  have hspace : Spelling.parts ' ' = true := by decide
  rw [spoken_append u (by simpa using hspace), spoken_space]

theorem spoken_slash {t : Text} (ht : Unpaired t) : spoken ('\\' :: t) = spoken t :=
  spoken_cons (by decide) (spaceEscapes_cons (Or.inr ht))

theorem spoken_pair {c : Char} (hc : c = 'n' ∨ c = 't') (t : Text) :
    spoken ('\\' :: c :: t) = spoken t :=
  spoken_cons (by decide) (spaceEscapes_pair hc t)

end Orthography.Prose
