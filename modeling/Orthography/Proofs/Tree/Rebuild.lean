/-
The builder conserves its input.

Whatever the order of the calls, a block opened in the middle of a line among them, the tree holds
each token and each piece of trivia that was fed once, as it was fed. That says nothing about the
order in which they come out of the tree, which ill-nested blocks do disturb. But offsets do not get
lost either, so where what was fed had growing offsets, sorting by them brings its text back.
Main statement: `Event.conserves_run`.
-/
import Orthography.Proofs.Parse.Tiling
import Orthography.Proofs.Tree.FeedOrder

set_option autoImplicit false

namespace Orthography

/-! ## Tokens and trivia apart -/

theorem Token.filter_isToken_pieces (t : Token) : t.pieces.filter Event.isToken = [t.event] := by
  have hnone : ∀ pieces : List Trivia, (pieces.map Trivia.event).filter Event.isToken = [] := by
    intro pieces
    rw [List.filter_eq_nil_iff]
    intro e he
    obtain ⟨piece, -, rfl⟩ := List.mem_map.mp he
    simp [Trivia.event, Event.isToken]
  rw [pieces, List.filter_append, List.filter_cons_of_pos rfl, hnone, hnone]
  rfl

theorem Token.filter_isTrivia_pieces (t : Token) :
    t.pieces.filter Event.isTrivia = t.trivia.map Trivia.event := by
  have hall : ∀ pieces : List Trivia,
      (pieces.map Trivia.event).filter Event.isTrivia = pieces.map Trivia.event := by
    intro pieces
    rw [List.filter_eq_self]
    intro e he
    obtain ⟨piece, -, rfl⟩ := List.mem_map.mp he
    rfl
  rw [pieces, trivia, List.filter_append, List.filter_cons_of_neg (by simp [Event.isTrivia]), hall,
    hall, List.map_append]

/-- Every token that is fed is a piece. -/
theorem Event.filter_isToken_filter_isPiece (events : List Event) :
    (events.filter isPiece).filter isToken = events.filter isToken := by
  rw [List.filter_filter]
  refine List.filter_congr fun e _ => ?_
  cases e <;> simp [isToken, isPiece]

/-! ## Conservation -/

/-- The texts that are fed, empty ones aside, have growing offsets. -/
def Event.Ascending (events : List Event) : Prop :=
  ((events.filterMap fragment?).filter (!·.2.isEmpty)).Pairwise fun p q => p.1 < q.1

/-- The tree holds what the events feed. -/
structure Tree.Conserves (tree : Tree) (events : List Event) : Prop where
  /-- Its tokens are those that were fed, each of them once, and the end of the source. -/
  tokens : (tree.descendants.map Token.event).Perm
    (events.filter Event.isToken ++ [tree.eof.event])
  /-- Its leading and trailing trivia are the pieces that were fed and have text, each once. -/
  trivia : ((tree.descendants.flatMap Token.trivia).map Trivia.event).Perm
    ((events.filter Event.isPiece).filter Event.isTrivia)
  /-- What was fed with growing offsets is what the tree spells. -/
  rebuilt : Event.Ascending events →
    tree.textWithTrivia = (events.filterMap Event.fragment?).flatMap (·.2)

/-- A tree that holds the pieces of the events spells them, if their offsets grow. -/
theorem Event.textWithTrivia_of_ascending {events : List Event} {tree : Tree} {eofOffset : Int}
    (hperm : (tree.descendants.flatMap Token.pieces).Perm
      (events.filter isPiece ++ [.token .eof [] eofOffset]))
    (hascending : Ascending events) :
    tree.textWithTrivia = (events.filterMap fragment?).flatMap (·.2) := by
  refine Tree.textWithTrivia_eq ?_ hascending
  have hfragments := hperm.filterMap fragment?
  rw [List.filterMap_flatMap, List.filterMap_append] at hfragments
  simp only [← Tree.fragments_eq] at hfragments
  -- the pieces that are left out have no text, and neither has the end of the source
  have hpieces : ((events.filter isPiece).filterMap fragment?).filter (!·.2.isEmpty)
      = (events.filterMap fragment?).filter (!·.2.isEmpty) := by
    rw [List.filterMap_filter, List.filter_filterMap, List.filter_filterMap]
    refine List.filterMap_congr fun e _ => ?_
    cases e with
    | token kind text offset => rfl
    | trivia kind text offset => cases text <;> rfl
    | endLine | startBlock | finishBlock | finish => rfl
  refine (hfragments.filter (!·.2.isEmpty)).trans (List.Perm.of_eq ?_)
  rw [List.filter_append, hpieces]
  exact List.append_nil _

/-- A tree that holds the pieces of the events holds their tokens. -/
theorem Event.tokens_perm {events : List Event} {tree : Tree} {eofOffset : Int}
    (hperm : (tree.descendants.flatMap Token.pieces).Perm
      (events.filter isPiece ++ [.token .eof [] eofOffset])) :
    (tree.descendants.map Token.event).Perm
      (events.filter isToken ++ [.token .eof [] eofOffset]) := by
  have htokens := hperm.filter isToken
  rw [List.filter_flatMap, List.filter_append, filter_isToken_filter_isPiece] at htokens
  simp only [Token.filter_isToken_pieces, ← List.map_eq_flatMap] at htokens
  exact htokens

/-- **Conservation.** For any calls in any order, the tree that finishes them holds each token and
each piece of trivia with text once, unchanged; where these were fed with growing offsets, the tree
spells them in the order of feeding. -/
theorem Event.conserves_run {events : List Event} (h : .finish ∉ events) (source : Text)
    (eofOffset : Int) : ((Builder.run events).tree source eofOffset).Conserves events := by
  have hperm := pieces_run_perm h source eofOffset
  refine ⟨tokens_perm hperm, ?_, textWithTrivia_of_ascending hperm⟩
  have htrivia := hperm.filter isTrivia
  rw [List.filter_flatMap, List.filter_append] at htrivia
  simp only [Token.filter_isTrivia_pieces] at htrivia
  rw [List.map_flatMap]
  refine htrivia.trans (List.Perm.of_eq ?_)
  exact List.append_nil _

/-- A block that is opened in the middle of a line and closed twice: `c` comes out before the
bracket, and the text is what was fed. -/
theorem Event.conserves_run_stray :
    let events : List Event :=
      [.token .identifier ['a'] 0, .trivia .newline ['\n'] 1, .endLine,
        .token .operator ['('] 2, .startBlock, .token .identifier ['b'] 3, .endLine,
        .trivia .comment [] 4, .token .identifier ['c'] 4, .finishBlock, .finishBlock]
    ((Builder.run events).tree [] 5).Conserves events
      ∧ ((Builder.run events).tree [] 5).textWithTrivia = "a\n(bc".toList := by
  intro events
  have hconserves := @conserves_run events (by decide) [] 5
  exact ⟨hconserves, hconserves.rebuilt (by unfold Ascending; decide)⟩

end Orthography
