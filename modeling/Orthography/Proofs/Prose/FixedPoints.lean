/-
Texts that are prose already.

Making prose of a text takes three passes, and the join at the end puts spaces in, so a text could
come back from it unchanged by what one step takes and another one gives. It cannot, for spaces are
all that is ever put in: the ink of a text, its characters but for the spaces, only gets less. A
pass that finds anything takes ink, and so do breaking characters that are dropped (`Thins`,
`thins_words`). A text that is left has lost none, so no pass found anything, and it has as many
spaces as before, so it is one word. Main statement, `ofRaw_eq_self_iff`.
-/
import Orthography.Proofs.Prose.Separation
import Orthography.Proofs.Prose.Links
import Orthography.Proofs.Prose.Words

set_option autoImplicit false

namespace Orthography.Prose

open Unicode

/-! ## Ink -/

/-- The number of characters that are no spaces. -/
def ink (t : Text) : Nat := t.countP (· != ' ')

theorem ink_append (a b : Text) : ink (a ++ b) = ink a + ink b := List.countP_append

theorem ink_cons (c : Char) (t : Text) : ink (c :: t) = ink t + if c = ' ' then 0 else 1 := by
  rw [ink, List.countP_cons]
  by_cases hc : c = ' ' <;> simp [hc, ink]

/-- The pass leaves the text, which is clean then, or it takes ink from it. -/
def Thins (pass : Text → Text) (Clean : Text → Prop) : Prop :=
  ∀ t, pass t = t ∧ Clean t ∨ ink (pass t) < ink t

namespace Thins

variable {pass pass' : Text → Text} {Clean Clean' : Text → Prop}

theorem ink_le (h : Thins pass Clean) (t : Text) : ink (pass t) ≤ ink t := by
  rcases h t with ⟨hself, -⟩ | hless
  · rw [hself]
  · exact Nat.le_of_lt hless

/-- One pass after another. -/
theorem comp (h' : Thins pass' Clean') (h : Thins pass Clean) :
    Thins (pass' ∘ pass) fun t => Clean t ∧ Clean' t := by
  intro t
  rw [Function.comp_apply]
  rcases h t with ⟨hself, hclean⟩ | hless
  · rw [hself]
    exact (h' t).imp_left fun ⟨hself', hclean'⟩ => ⟨hself', hclean, hclean'⟩
  · exact Or.inr (Nat.lt_of_le_of_lt (h'.ink_le _) hless)

end Thins

/-! ## The passes -/

theorem ink_stripLinksFrom_le (before : Option Char) (linked : Nat) (t : Text) :
    ink (stripLinksFrom before linked t) ≤ ink t := by
  induction t generalizing before linked with
  | nil => exact Nat.le_refl _
  | cons c rest ih =>
    rw [ink_cons]
    unfold stripLinksFrom
    split
    · exact Nat.le_add_right_of_le (ih _ _)
    · split
      · exact Nat.le_add_right_of_le (ih _ _)
      · rw [ink_cons]
        exact Nat.add_le_add_right (ih _ _) _

/-- A link begins with no space, so it takes ink. Hence taking out links either finds none or leaves
less ink. -/
theorem stripLinksFrom_eq_or_lt (before : Option Char) (t : Text) :
    stripLinksFrom before 0 t = t ∨ ink (stripLinksFrom before 0 t) < ink t := by
  induction t generalizing before with
  | nil => exact Or.inl rfl
  | cons c rest ih =>
    rcases linkLength?_cases before (c :: rest) with hnone | ⟨n, hlink⟩
    · rw [stripLinksFrom_of_none hnone]
      rcases ih (some c) with hself | hless
      · left
        rw [hself]
      · right
        rw [ink_cons, ink_cons]
        exact Nat.add_lt_add_right hless _
    · have hspace : c ≠ ' ' := by
        rintro rfl
        rw [linkLength?_cons_of_parts (by decide) rest before] at hlink
        cases hlink
      have hstep := stripLinksFrom_of_link hlink
      have hle := ink_stripLinksFrom_le (some c) n rest
      right
      rw [hstep, ink_cons, if_neg hspace]
      omega

/-- Taking out links leaves a text as it is, or takes ink away: a link is never made of spaces. -/
theorem thins_stripLinks : Thins stripLinks fun t => stripLinks t = t := by
  intro t
  rcases stripLinksFrom_eq_or_lt none t with hself | hless
  · exact Or.inl ⟨hself, hself⟩
  · exact Or.inr hless

/-- Putting a space in the place of a pair takes away the ink of two characters. -/
theorem thins_replacePair {a b : Char} (ha : a ≠ ' ') (hb : b ≠ ' ') :
    Thins (Text.replacePair a b ' ') fun t => ¬ [a, b] <:+: t := by
  intro t
  fun_induction Text.replacePair a b ' ' t with
  | case1 => exact Or.inl ⟨rfl, by simp⟩
  | case2 c =>
    refine Or.inl ⟨rfl, fun hpair => ?_⟩
    have hle := hpair.length_le
    simp at hle
  | case3 c d rest hpair ih =>
    obtain ⟨rfl, rfl⟩ := hpair
    right
    -- the pair is two characters of ink, the space for it none
    have hle : ink (Text.replacePair c d ' ' rest) ≤ ink rest := by
      rcases ih with ⟨hself, -⟩ | hless
      · rw [hself]
      · exact Nat.le_of_lt hless
    rw [ink_cons, ink_cons, ink_cons, if_pos rfl, if_neg ha, if_neg hb]
    omega
  | case4 c d rest hpair ih =>
    rcases ih with ⟨hself, hclean⟩ | hless
    · refine Or.inl ⟨by rw [hself], fun hinfix => ?_⟩
      rcases List.infix_cons_iff.mp hinfix with hstands | hinfix
      · rw [List.cons_prefix_cons, List.cons_prefix_cons] at hstands
        exact hpair ⟨hstands.1.symm, hstands.2.1.symm⟩
      · exact hclean hinfix
    · right
      rw [ink_cons, ink_cons c]
      exact Nat.add_lt_add_right hless _

theorem thins_spaceEscapes :
    Thins spaceEscapes fun t => ¬ ['\\', 'n'] <:+: t ∧ ¬ ['\\', 't'] <:+: t :=
  (thins_replacePair (by decide) (by decide)).comp (thins_replacePair (by decide) (by decide))

theorem thins_filter {keep : Char → Bool} (hspace : keep ' ' = true) :
    Thins (List.filter keep) fun t => ∀ c ∈ t, keep c = true := by
  intro t
  induction t with
  | nil => exact Or.inl ⟨rfl, by simp⟩
  | cons c t ih =>
    by_cases hc : keep c = true
    · rw [List.filter_cons_of_pos hc]
      rcases ih with ⟨hself, hclean⟩ | hless
      · exact Or.inl ⟨by rw [hself], List.forall_mem_cons.mpr ⟨hc, hclean⟩⟩
      · right
        rw [ink_cons, ink_cons]
        exact Nat.add_lt_add_right hless _
    · have hne : c ≠ ' ' := by
        rintro rfl
        exact hc hspace
      have hle : ink (t.filter keep) ≤ ink t := List.filter_sublist.countP_le
      right
      rw [List.filter_cons_of_neg hc, ink_cons, if_neg hne]
      omega

/-- The text has no character that separates words and is dropped. -/
def Unseparated (t : Text) : Prop := ∀ c ∈ t, separates c = true → isUpper c = true

/-- Cut into words, a text loses what separates them. -/
theorem thins_words : Thins (List.flatten ∘ words) Unseparated := by
  have hspace : (!(breaks ' ' && !isUpper ' ')) = true := by decide
  have hfilter : Thins (List.filter fun c => !(breaks c && !isUpper c)) _ := thins_filter hspace
  intro t
  rw [Function.comp_apply, flatten_words]
  refine (hfilter t).imp_left (And.imp_right fun hclean c hc hseparates => ?_)
  have hkeep := hclean c hc
  simpa [breaks, hseparates] using hkeep

/-! ## The join -/

/-- Joining words puts in spaces and nothing else. -/
theorem ink_intercalate (ws : List Text) : ink (List.intercalate [' '] ws) = ink ws.flatten := by
  induction ws with
  | nil => rfl
  | cons w ws ih =>
    cases ws with
    | nil => simp [List.intercalate]
    | cons v ws =>
      rw [List.intercalate_cons_cons, ink_append, ink_append, ih, List.flatten_cons, ink_append]
      simp [ink]

/-- Putting one space between words makes their text longer by one less than there are words. -/
theorem length_intercalate (ws : List Text) :
    (List.intercalate [' '] ws).length = ws.flatten.length + (ws.length - 1) := by
  induction ws with
  | nil => rfl
  | cons w ws ih =>
    cases ws with
    | nil => simp [List.intercalate]
    | cons v ws =>
      have hflatten : (w :: v :: ws).flatten.length = w.length + (v :: ws).flatten.length := by
        rw [List.flatten_cons, List.length_append]
      rw [List.intercalate_cons_cons, List.length_append, List.length_append, ih, hflatten]
      simp only [List.length_cons, List.length_nil]
      omega

/-! ## Texts that are left -/

/-- Nothing in the text is to be changed: no link, no pair, no character that separates words, and
no capital behind the first character. -/
structure Plain (t : Text) : Prop where
  unlinked : stripLinks t = t
  noFeedPair : ¬ ['\\', 'n'] <:+: t
  noTabPair : ¬ ['\\', 't'] <:+: t
  unseparated : Unseparated t
  uncapped : ∀ c ∈ t.tail, isUpper c = false

theorem replacePair_eq_self {a b new : Char} {t : Text} (h : ¬ [a, b] <:+: t) :
    Text.replacePair a b new t = t := by
  fun_induction Text.replacePair a b new t with
  | case1 => rfl
  | case2 c => rfl
  | case3 c d rest hpair ih =>
    obtain ⟨rfl, rfl⟩ := hpair
    exact absurd (List.prefix_append [c, d] rest).isInfix h
  | case4 c d rest hpair ih => rw [ih fun hinfix => h (List.infix_cons hinfix)]

theorem spaceEscapes_eq_self {t : Text} (hfeed : ¬ ['\\', 'n'] <:+: t)
    (htab : ¬ ['\\', 't'] <:+: t) : spaceEscapes t = t := by
  rw [spaceEscapes, replacePair_eq_self hfeed, replacePair_eq_self htab]

/-- A text of one word has no capital behind its first character. -/
theorem isUpper_of_length_words_le {t : Text} (h : (words t).length ≤ 1) :
    ∀ c ∈ t.tail, isUpper c = false := by
  cases t with
  | nil => simp
  | cons c t =>
    intro d hd
    rw [length_words_cons] at h
    have hnone : t.countP breaks = 0 := by omega
    have hbreaks := List.countP_eq_zero.mp hnone d hd
    rw [breaks, Bool.or_eq_true, not_or, Bool.not_eq_true] at hbreaks
    exact hbreaks.1

theorem Plain.ofRaw_eq_self {t : Text} (h : Plain t) : ofRaw t = t := by
  rw [ofRaw, h.unlinked, spaceEscapes_eq_self h.noFeedPair h.noTabPair]
  cases t with
  | nil =>
    rw [words_nil]
    rfl
  | cons c t =>
    have hseed : seed c = [c] := by
      have hfirst := h.unseparated c List.mem_cons_self
      unfold seed
      cases hseparates : separates c with
      | false => simp
      | true => simp [hfirst hseparates]
    have hjoins : ∀ d ∈ t, breaks d = false := by
      intro d hd
      have hupper := h.uncapped d hd
      have hdropped := h.unseparated d (List.mem_cons_of_mem c hd)
      rw [hupper] at hdropped
      simpa [breaks, hupper] using hdropped
    rw [intercalate_words_cons, hseed, flatMap_spread_eq_self hjoins, List.singleton_append]

/-- And where all passes together leave a text as it is, each of them does: a pass that changed it
would have taken ink away, and no later pass gives it back. This is the direction for which ink is
counted. -/
theorem plain_of_ofRaw_eq_self {t : Text} (h : ofRaw t = t) : Plain t := by
  have hink : ink (words (spaceEscapes (stripLinks t))).flatten = ink t := by
    rw [← ink_intercalate, ← ofRaw, h]
  have hthins := thins_words.comp (thins_spaceEscapes.comp thins_stripLinks)
  rcases hthins t with ⟨hflatten, ⟨hlinks, hfeed, htab⟩, hunseparated⟩ | hless
  · have hescapes := spaceEscapes_eq_self hfeed htab
    simp only [Function.comp_apply, hlinks, hescapes] at hflatten
    -- no character is gone, so there is no room for a space between words
    have hlength := length_intercalate (words t)
    rw [ofRaw, hlinks, hescapes] at h
    rw [h, hflatten] at hlength
    exact ⟨hlinks, hfeed, htab, hunseparated, isUpper_of_length_words_le (by omega)⟩
  · simp only [Function.comp_apply] at hless
    omega

/-- **Prose already.** A text comes back unchanged if and only if nothing in it is to be changed.
Then making prose of it again changes nothing either. -/
theorem ofRaw_eq_self_iff (t : Text) :
    (ofRaw t = t ↔ Plain t) ∧ (Plain t → ofRaw (ofRaw t) = ofRaw t) :=
  ⟨⟨plain_of_ofRaw_eq_self, Plain.ofRaw_eq_self⟩, fun h => by
    rw [h.ofRaw_eq_self, h.ofRaw_eq_self]⟩

/-- A capital at the beginning, a backslash before another letter, and an opening with nothing
behind. -/
theorem ofRaw_eq_self_iff_backslash :
    Plain "See a\\b or mailto: it".toList
      ∧ ofRaw (ofRaw "See a\\b or mailto: it".toList)
        = ofRaw "See a\\b or mailto: it".toList := by
  have hplain : Plain "See a\\b or mailto: it".toList :=
    (ofRaw_eq_self_iff _).1.mp (by decide +kernel)
  exact ⟨hplain, (ofRaw_eq_self_iff _).2 hplain⟩

end Orthography.Prose
