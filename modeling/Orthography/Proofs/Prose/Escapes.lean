/-
Escape pairs between words.

The pairs of a backslash and `n` or `t` become spaces, but only in the text that is left when the
links are gone, and a link does not know of pairs. Main statement, `words_ofRaw_escape`: to all but
links a pair is a space, so that the words around it are those around a space exactly if links leave
the same words on both sides. They do where they take of the text around the pair what they take of
it around a space (`Spared.spoken_around`): wherever no link holds a character of the pair
(`Unlinked.spared`), and also where a link goes over the pair and takes no more than it would.
`words_ofRaw_linked` shows two of the others: a letter that is taken for the mailbox of an address,
and a tail that runs over a pair. Either way the text behind the pair is gone.

A backslash parts links as a space does, except that a tail runs over it. So the links before a pair
are those before a space, and behind it the links are those behind a space as well, because the
letter would carry any host that begins behind it (`hostLength?_of_cons`).
-/
import Orthography.Proofs.Prose.LinkEnds
import Orthography.Proofs.Prose.Separation

set_option autoImplicit false

namespace Orthography.Prose

open Unicode

/-! ## Pairs that links leave alone -/

/-- No link holds a character of the pair between `a` and `b`. -/
structure Unlinked (a : Text) (c : Char) (b : Text) : Prop where
  slash : (linkMarks (a ++ '\\' :: c :: b))[a.length]? = some false
  letter : (linkMarks (a ++ '\\' :: c :: b))[a.length + 1]? = some false

/-- Links take the same of the text around the pair as of the text around a space in its place. -/
structure Spared (a : Text) (c : Char) (b : Text) : Prop where
  before : (linkMarks (a ++ '\\' :: c :: b)).take a.length
    = (linkMarks (a ++ ' ' :: b)).take a.length
  behind : (linkMarks (a ++ '\\' :: c :: b)).drop (a.length + 2)
    = (linkMarks (a ++ ' ' :: b)).drop (a.length + 1)
  /-- Behind a link that goes over the pair no apostrophe is left, which could join what stands
  around the link to one word. -/
  unglued : (linkMarks (a ++ '\\' :: c :: b))[a.length]? = some true →
    (unmarked b ((linkMarks (a ++ '\\' :: c :: b)).drop (a.length + 2))).head? ≠ some '\''

/-- What links leave of the text around a place of `k` characters between `a` and `b`. A space
stands for the place itself, unless a link goes over it. -/
def around (a b : Text) (marks : List Bool) (k : Nat) : Text :=
  unmarked a (marks.take a.length)
    ++ ((if marks[a.length]? = some true then [] else [' '])
      ++ unmarked b (marks.drop (a.length + k)))

/-! ## Links around a pair -/

/-- A link that ends before a pair, or does not come before it, is so before a space too. -/
theorem linkLength?_escape {before : Option Char} {a z : Text} {link : Option Nat} (b : Text)
    (hlink : linkLength? before (a ++ '\\' :: z) = link) (hshort : ∀ n ∈ link, n ≤ a.length) :
    linkLength? before (a ++ ' ' :: b) = link := by
  have hspace : linkLength? before (a ++ ' ' :: b) = linkLength? before a := by
    rcases linkLength?_append (by decide : parts ' ' = true) a b before with h | ⟨hstop, -⟩
    · exact h
    · exact absurd hstop (by decide)
  rcases linkLength?_append (by decide : parts '\\' = true) a z before with h | ⟨-, n, h, hn⟩
  · rw [hspace, ← h, hlink]
  · have hle := hshort n (hlink.symm.trans h)
    omega

/-- Behind a pair whose letter begins no link, the links are those behind a space. The letter is a
character of hosts, so a host that began behind it would have begun with it. -/
theorem linkMarksFrom_behind {c : Char} (hc : c = 'n' ∨ c = 't') {b : Text}
    (hnone : linkLength? (some '\\') (c :: b) = none) :
    linkMarksFrom (some c) 0 b = linkMarksFrom (some ' ') 0 b := by
  have hhost : isHostChar c = true := by
    rcases hc with rfl | rfl
    all_goals decide
  have hboundary : atBoundary (some '\\') (some c) = true := by
    rcases hc with rfl | rfl
    all_goals decide
  have hbefore : hostLength? (some '\\') (c :: b) = none := by
    simp only [linkLength?, Option.orElse_eq_orElse, Option.orElse_eq_or,
      Option.or_eq_none_iff] at hnone
    exact hnone.2.2.2.2
  have hlink : linkLength? (some c) b = linkLength? (some ' ') b := by
    unfold linkLength?
    rw [hostLength?_of_cons hhost hboundary hbefore, hostLength?_of_cons hhost hboundary hbefore]
  cases b with
  | nil => rfl
  | cons d b =>
    unfold linkMarksFrom
    rw [hlink]

/-- Where no link holds a character of a pair, a space in its place leaves the links around it. The
induction goes along the text before the pair, with the links that begin there being the same step
by step. -/
theorem linkMarksFrom_escape {c : Char} (hc : c = 'n' ∨ c = 't') (a b : Text)
    (before : Option Char) (linked : Nat)
    (hslash : (linkMarksFrom before linked (a ++ '\\' :: c :: b))[a.length]? = some false)
    (hletter : (linkMarksFrom before linked (a ++ '\\' :: c :: b))[a.length + 1]? = some false) :
    ∃ u v, u.length = a.length
      ∧ linkMarksFrom before linked (a ++ '\\' :: c :: b) = u ++ false :: false :: v
      ∧ linkMarksFrom before linked (a ++ ' ' :: b) = u ++ false :: v := by
  induction a generalizing before linked with
  | nil =>
    have hspace := linkLength?_cons_of_parts (by decide : parts ' ' = true) b before
    obtain ⟨rfl, hnone⟩ := linkLength?_of_unmarked hslash
    rw [List.nil_append, linkMarksFrom_of_none hnone] at hletter
    obtain ⟨-, hletterNone⟩ := linkLength?_of_unmarked hletter
    refine ⟨[], linkMarksFrom (some ' ') 0 b, rfl, ?_, ?_⟩
    · rw [List.nil_append, linkMarksFrom_of_none hnone, linkMarksFrom_of_none hletterNone,
        linkMarksFrom_behind hc hletterNone, List.nil_append]
    · rw [List.nil_append, linkMarksFrom_of_none hspace, List.nil_append]
  | cons x a ih =>
    simp only [List.cons_append, List.length_cons] at hslash hletter ⊢
    cases linked with
    | succ linked =>
      rw [linkMarksFrom_succ, List.getElem?_cons_succ] at hslash hletter
      obtain ⟨u, v, hlength, hpair, hspace⟩ := ih (some x) linked hslash hletter
      refine ⟨true :: u, v, congrArg (· + 1) hlength, ?_, ?_⟩
      · rw [linkMarksFrom_succ, hpair, List.cons_append]
      · rw [linkMarksFrom_succ, hspace, List.cons_append]
    | zero =>
      rcases linkLength?_cases before (x :: (a ++ '\\' :: c :: b)) with hnone | ⟨n, hlink⟩
      · have hnoneSpace : linkLength? before (x :: (a ++ ' ' :: b)) = none :=
          linkLength?_escape (a := x :: a) b hnone (by simp)
        rw [linkMarksFrom_of_none hnone, List.getElem?_cons_succ] at hslash hletter
        obtain ⟨u, v, hlength, hpair, hspace⟩ := ih (some x) 0 hslash hletter
        refine ⟨false :: u, v, congrArg (· + 1) hlength, ?_, ?_⟩
        · rw [linkMarksFrom_of_none hnone, hpair, List.cons_append]
        · rw [linkMarksFrom_of_none hnoneSpace, hspace, List.cons_append]
      · rw [linkMarksFrom_of_link hlink, List.getElem?_cons_succ] at hslash hletter
        -- a link over the pair would mark its backslash
        have hshort : n ≤ a.length := by
          by_contra hlong
          rw [linkMarksFrom_getElem?_of_lt (some x) (by omega) (by simp)] at hslash
          simp at hslash
        have hlinkSpace : linkLength? before (x :: (a ++ ' ' :: b)) = some (n + 1) :=
          linkLength?_escape (a := x :: a) b hlink (by simpa using hshort)
        obtain ⟨u, v, hlength, hpair, hspace⟩ := ih (some x) n hslash hletter
        refine ⟨true :: u, v, congrArg (· + 1) hlength, ?_, ?_⟩
        · rw [linkMarksFrom_of_link hlink, hpair, List.cons_append]
        · rw [linkMarksFrom_of_link hlinkSpace, hspace, List.cons_append]

/-- A pair that no link holds a character of is the plain case: as nothing goes over it, links
cannot tell it from a space, neither those that end before it nor those that begin behind it. -/
theorem Unlinked.spared {c : Char} (hc : c = 'n' ∨ c = 't') {a b : Text} (h : Unlinked a c b) :
    Spared a c b := by
  obtain ⟨u, v, hlength, hpair, hspace⟩ := linkMarksFrom_escape hc a b none 0 h.slash h.letter
  have hslash := h.slash
  rw [linkMarks] at hslash
  constructor
  · rw [linkMarks, linkMarks, hpair, hspace, List.take_left' hlength, List.take_left' hlength]
  · rw [linkMarks, linkMarks, hpair, hspace, ← hlength]
    simp
  · intro hmarked
    rw [linkMarks, hslash] at hmarked
    cases hmarked

/-! ## Words around a pair -/

theorem unmarked_split {a t : Text} {marks : List Bool} (h : a.length ≤ marks.length) :
    unmarked (a ++ t) marks
      = unmarked a (marks.take a.length) ++ unmarked t (marks.drop a.length) := by
  have hlength : a.length = (marks.take a.length).length := by
    rw [List.length_take]
    omega
  rw [← unmarked_append hlength, List.take_append_drop]

/-- No link holds a space. -/
theorem linkMarks_space (a b : Text) : (linkMarks (a ++ ' ' :: b))[a.length]? = some false :=
  linkMarksFrom_getElem?_of_stopsLink (by decide) (by decide) a b none (Nat.zero_le _)

/-- Around a space, what links leave of a text are what they leave of its two sides, with the space
between. -/
theorem stripLinks_space (a b : Text) :
    stripLinks (a ++ ' ' :: b) = around a b (linkMarks (a ++ ' ' :: b)) 1 := by
  have hspace := linkMarks_space a b
  obtain ⟨hlength, hfalse⟩ := List.getElem?_eq_some_iff.mp hspace
  rw [stripLinks_eq_unmarked, unmarked_split (by omega), List.drop_eq_getElem_cons hlength, hfalse,
    unmarked_cons_false, around, hspace]
  rfl

/-- What links leave of a pair and the text behind it, if they leave `v` of that text, and whether
one of them holds the backslash. No word goes on behind a link that takes hold of the pair. -/
inductive Remainder (c : Char) (v : Text) : Bool → Text → Prop
  | pair : Remainder c v false ('\\' :: c :: v)
  | slash (hclear : Clear v) : Remainder c v false ('\\' :: v)
  | nothing (hclear : Clear v) : Remainder c v true v

/-- What is left of a pair depends on which of its two characters links hold. That a link holds the
backslash alone is impossible, because a link ends before no word character. -/
theorem remainder_unmarked {c : Char} (hword : isWord c = true) {b : Text} {slash letter : Bool}
    {marks : List Bool}
    (hchain : (('\\', slash) :: (c, letter) :: b.zip marks).IsChain Parted) :
    Remainder c (unmarked b marks) slash
      (unmarked ('\\' :: c :: b) (slash :: letter :: marks)) := by
  obtain ⟨hparted, hbehind⟩ := List.isChain_cons_cons.mp hchain
  cases slash with
  | false =>
    cases letter with
    | false => exact .pair
    | true => exact .slash (clear_unmarked hbehind)
  | true =>
    cases letter with
    | false =>
      -- a link ends before no word character
      rw [hparted rfl rfl] at hword
      cases hword
    | true => exact .nothing (clear_unmarked hbehind)

/-- Around a pair, what links leave of a text are what they leave of its two sides, with the
remainder of the pair between. -/
theorem stripLinks_pair {c : Char} (hword : isWord c = true) (a b : Text) :
    ∃ slash w, (linkMarks (a ++ '\\' :: c :: b))[a.length]? = some slash
      ∧ Remainder c (unmarked b ((linkMarks (a ++ '\\' :: c :: b)).drop (a.length + 2))) slash w
      ∧ stripLinks (a ++ '\\' :: c :: b)
        = unmarked a ((linkMarks (a ++ '\\' :: c :: b)).take a.length) ++ w := by
  have hchain := isChain_linkMarks (a ++ '\\' :: c :: b)
  have hlength : (linkMarks (a ++ '\\' :: c :: b)).length = a.length + (b.length + 2) := by
    simp [linkMarks]
  rw [stripLinks_eq_unmarked]
  generalize linkMarks (a ++ '\\' :: c :: b) = marks at hchain hlength
  have hslash : a.length < marks.length := by omega
  have hletter : a.length + 1 < marks.length := by omega
  have hdrop : marks.drop a.length
      = marks[a.length] :: marks[a.length + 1] :: marks.drop (a.length + 2) := by
    rw [List.drop_eq_getElem_cons hslash, List.drop_eq_getElem_cons hletter]
  have htake : a.length = (marks.take a.length).length := by
    rw [List.length_take]
    omega
  rw [← marks.take_append_drop a.length, List.zip_append htake, hdrop] at hchain
  refine ⟨marks[a.length], _, List.getElem?_eq_getElem hslash,
    remainder_unmarked hword (List.isChain_append.mp hchain).2.1, ?_⟩
  rw [unmarked_split hslash.le, hdrop]

/-- The remainder of a pair is a space to the words. A whole pair becomes one, a lone backslash is
none of the characters of a word, and where a link goes over the pair nothing is left of it. -/
theorem Remainder.spoken_eq {c : Char} (hc : c = 'n' ∨ c = 't') {v w : Text} {slash : Bool}
    (h : Remainder c v slash w) (u : Text) :
    spoken (u ++ w) = spoken (u ++ ((if slash then [] else [' ']) ++ v)) := by
  have hslash : Spelling.parts '\\' = true := by decide
  cases h with
  | pair =>
    show _ = spoken (u ++ ' ' :: v)
    rw [spoken_append_space, spoken_append u (by simpa using hslash), spoken_pair hc]
  | slash hclear =>
    have hunpaired : Unpaired v := by
      constructor
      all_goals
        intro hmem
        exact absurd (hclear _ hmem) (by decide)
    show _ = spoken (u ++ ' ' :: v)
    rw [spoken_append_space, spoken_append u (by simpa using hslash), spoken_slash hunpaired]
  | nothing => rfl

/-- Behind a link that no word and no apostrophe follows, words are those behind a space. -/
theorem spoken_append_of_clear (u : Text) {v : Text} (hclear : Clear v)
    (hunglued : v.head? ≠ some '\'') : spoken (u ++ v) = spoken u ++ spoken v := by
  apply spoken_append
  intro s hs
  have hapostrophe : s ≠ '\'' := by
    rintro rfl
    exact hunglued hs
  simp [Spelling.parts, Spelling.isLetter, hclear s hs, hapostrophe]

/-- Where links take the same of the text around a pair as around a space, they leave the same
words. -/
theorem Spared.spoken_around {c : Char} (hword : isWord c = true) {a b : Text}
    (h : Spared a c b) :
    spoken (around a b (linkMarks (a ++ '\\' :: c :: b)) 2)
      = spoken (around a b (linkMarks (a ++ ' ' :: b)) 1) := by
  obtain ⟨slash, w, hslash, hremainder, -⟩ := stripLinks_pair hword a b
  rw [around, around, linkMarks_space, ← h.before, ← h.behind, hslash]
  cases slash with
  | false => rfl
  | true =>
    -- a link goes over the pair, and a space would have parted what it leaves
    obtain _ | _ | hclear := hremainder
    show spoken (_ ++ unmarked b _) = spoken (_ ++ ' ' :: unmarked b _)
    rw [spoken_append_of_clear _ hclear (h.unglued hslash), spoken_append_space]

/-- **To all but links a pair is a space.** The words of a text with a pair are those that links
leave around it, with a space in its place unless one of them goes over it. So a pair separates
words as a space does exactly if links leave the same words around both, and in particular if they
take the same of the text. -/
theorem words_ofRaw_escape {c : Char} (hc : c = 'n' ∨ c = 't') (a b : Text) :
    let paired := a ++ '\\' :: c :: b
    let spaced := a ++ ' ' :: b
    (Spelling.wordsFrom (ofRaw paired) 0).map (·.2) = spoken (around a b (linkMarks paired) 2)
      ∧ ((Spelling.wordsFrom (ofRaw paired) 0).map (·.2)
          = (Spelling.wordsFrom (ofRaw spaced) 0).map (·.2)
        ↔ spoken (around a b (linkMarks paired) 2) = spoken (around a b (linkMarks spaced) 1))
      ∧ (Spared a c b → (Spelling.wordsFrom (ofRaw paired) 0).map (·.2)
        = (Spelling.wordsFrom (ofRaw spaced) 0).map (·.2)) := by
  intro paired spaced
  have hword : isWord c = true := by
    rcases hc with rfl | rfl
    all_goals decide
  obtain ⟨slash, w, hslash, hremainder, hpair⟩ := stripLinks_pair hword a b
  have hpaired : (Spelling.wordsFrom (ofRaw paired) 0).map (·.2)
      = spoken (around a b (linkMarks paired) 2) := by
    show spoken (stripLinks paired) = _
    rw [hpair, hremainder.spoken_eq hc, around, hslash]
    simp only [Option.some.injEq]
    rfl
  have hspaced : (Spelling.wordsFrom (ofRaw spaced) 0).map (·.2)
      = spoken (around a b (linkMarks spaced) 1) := by
    show spoken (stripLinks spaced) = _
    rw [stripLinks_space]
  rw [hpaired, hspaced]
  exact ⟨rfl, Iff.rfl, Spared.spoken_around hword⟩

/-- A pair between an address and a host, and one at the end of a link that a space would end. -/
theorem words_ofRaw_escape_between :
    ('t' = 'n' ∨ 't' = 't')
      ∧ Unlinked "see me@x.org,".toList 't' "or x.org".toList
      ∧ Spared "see http://x.org".toList 'n' " or not".toList
      ∧ (Spelling.wordsFrom
          (ofRaw ("see me@x.org,".toList ++ '\\' :: 't' :: "or x.org".toList)) 0).map (·.2)
        = (Spelling.wordsFrom
          (ofRaw ("see me@x.org,".toList ++ ' ' :: "or x.org".toList)) 0).map (·.2)
      ∧ (Spelling.wordsFrom
          (ofRaw ("see http://x.org".toList ++ '\\' :: 'n' :: " or not".toList)) 0).map (·.2)
        = (Spelling.wordsFrom
          (ofRaw ("see http://x.org".toList ++ ' ' :: " or not".toList)) 0).map (·.2) := by
  have hunlinked : Unlinked "see me@x.org,".toList 't' "or x.org".toList :=
    ⟨by decide +kernel, by decide +kernel⟩
  have hspared : Spared "see http://x.org".toList 'n' " or not".toList :=
    ⟨by decide +kernel, by decide +kernel, by decide +kernel⟩
  exact ⟨Or.inr rfl, hunlinked, hspared,
    (words_ofRaw_escape (Or.inr rfl) _ _).2.2 (hunlinked.spared (Or.inr rfl)),
    (words_ofRaw_escape (Or.inl rfl) _ _).2.2 hspared⟩

/-- Where a link takes the letter of a pair, or goes over it, words are missing behind it. -/
theorem words_ofRaw_linked :
    (Spelling.wordsFrom (ofRaw ('\\' :: 'n' :: "@app.route".toList)) 0).map (·.2)
        ≠ (Spelling.wordsFrom (ofRaw (' ' :: "@app.route".toList)) 0).map (·.2)
      ∧ (Spelling.wordsFrom
          (ofRaw ("http://x.org".toList ++ '\\' :: 'n' :: "then".toList)) 0).map (·.2)
        ≠ (Spelling.wordsFrom
          (ofRaw ("http://x.org".toList ++ ' ' :: "then".toList)) 0).map (·.2) := by
  decide +kernel

end Orthography.Prose
