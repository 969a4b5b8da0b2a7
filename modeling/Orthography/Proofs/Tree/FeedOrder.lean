/-
Document order and the order of feeding.

Statements about the tree behind any run of events. If no logical line begins directly in a stray
block, document order is the order of feeding (`Event.descendants_run`). And where the tokens were
fed with growing offsets, that is the only case in which they come out in the order of their offsets
(`Event.offsets_run_pairwise_iff`). There is no stray block at all where blocks begin only between
logical lines (`Event.strayed_of_blocksBetween`), wherever they end and whatever the brackets do.
-/
import Mathlib.Data.List.Nodup
import Orthography.Proofs.Tree.Layout
import Orthography.Proofs.Tree.Traversal

set_option autoImplicit false

namespace Orthography

/-! ## Tokens as events -/

/-- Does the event feed a token? -/
def Event.isToken : Event → Bool
  | .token .. => true
  | _ => false

/-- Does the event feed trivia? -/
def Event.isTrivia : Event → Bool
  | .trivia .. => true
  | _ => false

/-- The offset of the token that the event feeds. -/
def Event.tokenOffset? : Event → Option Int
  | .token _ _ offset => some offset
  | _ => none

theorem Event.filterMap_filter_isToken (events : List Event) :
    (events.filter Event.isToken).filterMap Event.tokenOffset?
      = events.filterMap Event.tokenOffset? := by
  induction events with
  | nil => rfl
  | cons e rest ih =>
    cases e with
    | token kind text offset => exact congrArg (offset :: ·) ih
    | _ => exact ih

/-- The event that feeds an entry. -/
def Entry.event (e : Entry) : Event := .token e.kind e.text e.offset

/-- The event that feeds a token. -/
def Token.event (t : Token) : Event := .token t.kind t.text t.offset

namespace Builder

/-! ## Entries in the order of feeding -/

/-- An event adds the token that it feeds. -/
theorem fed_step (b : Builder) (e : Event) :
    (b.step e).entries.reverse.map Entry.event
      = b.entries.reverse.map Entry.event ++ [e].filter Event.isToken := by
  cases e with
  | token kind text offset =>
    rw [step, addToken, List.reverse_cons, List.map_append]
    rfl
  | trivia kind text offset =>
    obtain ⟨trailing, waiting, codeOnLine, heq⟩ := b.addTrivia_eq ⟨kind, text, offset⟩
    simp [step, heq, Event.isToken]
  | endLine | startBlock | finishBlock | finish => simp [step, Event.isToken]

/-- A run adds the tokens that are fed, in the order of feeding. -/
theorem fed_foldl (b : Builder) (events : List Event) :
    (events.foldl step b).entries.reverse.map Entry.event
      = b.entries.reverse.map Entry.event ++ events.filter Event.isToken := by
  induction events generalizing b with
  | nil => simp
  | cons e rest ih =>
    rw [List.foldl_cons, ih, fed_step, List.append_assoc, ← List.filter_append,
      List.singleton_append]

/-- Each number is given away once. -/
theorem Sound.fresh {b : Builder} (h : b.Sound) : Fresh [none] b.entries.reverse := by
  have hids : b.entries.reverse.map (fun e => some e.id)
      = (List.range b.entries.length).map some := by
    have hmap := congrArg (List.map some) h.ids
    rw [List.map_map] at hmap
    rw [List.map_reverse]
    refine (congrArg List.reverse hmap).trans ?_
    rw [List.map_reverse, List.reverse_reverse]
  -- numbers are given away in order, and the top level has none
  rw [Fresh, hids, List.singleton_append, List.nodup_cons]
  exact ⟨by simp, (List.nodup_range).map fun _ _ => Option.some.inj⟩

/-- The tokens below the top level, in the order of descent, are the listing of the entries. -/
theorem map_shallow_topLevel (b : Builder) :
    (Token.descendantsAll b.topLevel).map Token.shallow = b.listing b.entries.reverse none := by
  rw [listing, topLevel_eq_forest]

/-- Entries in turn come out in the order in which they were fed. -/
theorem Sound.map_shallow_of_inTurn {b : Builder} (h : b.Sound)
    (hturn : InTurn [none] b.entries.reverse) :
    (Token.descendantsAll b.topLevel).map Token.shallow = b.entries.reverse.map b.bare := by
  rw [map_shallow_topLevel, ← b.flatMap_listing_of_inTurn h.fresh hturn, List.flatMap_singleton]

/-- The offsets of a tree are those of its tokens in the order of descent, and the end of the source
comes last. -/
theorem offsets_tree (b : Builder) (source : Text) (eofOffset : Int) :
    (b.tree source eofOffset).descendants.map (·.offset)
      = ((Token.descendantsAll b.topLevel).map Token.shallow).map (·.offset) ++ [eofOffset] := by
  rw [Tree.descendants_eq _ rfl, List.map_append, List.map_map]
  rfl

/-- **Growing offsets.** Where offsets grow in the order of feeding, they do so in document order
exactly if every token was in turn. -/
theorem Sound.offsets_pairwise_iff {b : Builder} (h : b.Sound)
    (hgrow : (b.entries.reverse.map (·.offset)).Pairwise (· < ·)) :
    (((Token.descendantsAll b.topLevel).map Token.shallow).map (·.offset)).Pairwise (· ≤ ·)
      ↔ InTurn [none] b.entries.reverse := by
  have hbare : (b.entries.reverse.map b.bare).map (·.offset)
      = b.entries.reverse.map (·.offset) := by
    rw [List.map_map]
    rfl
  constructor
  · intro hsorted
    -- two rows of the same offsets in order are one row
    have hsame : ((Token.descendantsAll b.topLevel).map Token.shallow).map (·.offset)
        = b.entries.reverse.map (·.offset) := by
      refine List.Perm.eq_of_pairwise (fun x y _ _ hxy hyx => Int.le_antisymm hxy hyx) hsorted
        (hgrow.imp Int.le_of_lt) ?_
      exact hbare ▸ h.descendants_perm.map _
    refine b.inTurn_of_offsets h.fresh hgrow ?_
    rw [List.flatMap_singleton, ← map_shallow_topLevel, hsame]
  · intro hturn
    rw [h.map_shallow_of_inTurn hturn, hbare]
    exact hgrow.imp Int.le_of_lt

end Builder

/-! ## Runs -/

namespace Event

variable {events : List Event}

/-- Where no line begins in a stray block, document order is the order of feeding. -/
theorem descendants_run (h : Layout.strayed {} events = false) (source : Text) (eofOffset : Int) :
    ((Builder.run events).tree source eofOffset).descendants.map Token.event
      = events.filter isToken ++ [.token .eof [] eofOffset] := by
  have hturn := (Builder.inTurn_run_iff events).mpr h
  have hshallow := (Builder.sound_run events).map_shallow_of_inTurn hturn
  have hevents := congrArg (List.map Token.event) hshallow
  rw [List.map_map, List.map_map] at hevents
  have hfed := Builder.fed_foldl {} events
  rw [Tree.descendants_eq _ rfl, List.map_append]
  refine congrArg₂ (· ++ ·) (hevents.trans hfed) rfl

theorem offsets_entries_run (events : List Event) :
    (Builder.run events).entries.reverse.map (·.offset) = events.filterMap tokenOffset? := by
  have hfed := congrArg (List.filterMap tokenOffset?) (Builder.fed_foldl {} events)
  rw [List.filterMap_map] at hfed
  have hsome : tokenOffset? ∘ Entry.event = some ∘ Entry.offset := rfl
  rw [hsome, List.filterMap_eq_map] at hfed
  exact hfed.trans (filterMap_filter_isToken events)

/-- Tokens that were fed with growing offsets, none of them behind the end, come out with growing
offsets exactly if no logical line begins directly in a stray block. -/
theorem offsets_run_pairwise_iff {eofOffset : Int}
    (hgrow : (events.filterMap tokenOffset?).Pairwise (· < ·))
    (hend : ∀ offset ∈ events.filterMap tokenOffset?, offset ≤ eofOffset) (source : Text) :
    (((Builder.run events).tree source eofOffset).descendants.map (·.offset)).Pairwise (· ≤ ·)
      ↔ Layout.strayed {} events = false := by
  have hsound := Builder.sound_run events
  rw [← offsets_entries_run] at hgrow hend
  rw [← Builder.inTurn_run_iff, ← hsound.offsets_pairwise_iff hgrow, Builder.offsets_tree,
    List.pairwise_append]
  -- the end of the source comes last in any case
  refine ⟨And.left, fun h => ⟨h, List.pairwise_singleton _ _, ?_⟩⟩
  intro x hx y hy
  obtain rfl := List.mem_singleton.mp hy
  have hmem := (hsound.descendants_perm.map (·.offset)).subset hx
  rw [List.map_map] at hmem
  exact hend x hmem

/-! ## Blocks between lines -/

/-- Do blocks begin only while no logical line is open? At first one is open if `within` is true. -/
def blocksBetween (within : Bool) : List Event → Bool
  | [] => true
  | .token .. :: rest => blocksBetween true rest
  | .endLine :: rest => blocksBetween false rest
  | .startBlock :: rest => !within && blocksBetween within rest
  | .trivia .. :: rest | .finishBlock :: rest | .finish :: rest => blocksBetween within rest

/-- Trivia does not matter for where blocks begin. -/
theorem blocksBetween_filter (within : Bool) (events : List Event) :
    blocksBetween within (events.filter (!·.isTrivia)) = blocksBetween within events := by
  induction events generalizing within with
  | nil => rfl
  | cons e rest ih =>
    cases e with
    | trivia => exact ih within
    | token => exact ih true
    | endLine => exact ih false
    | startBlock => exact congrArg (!within && ·) (ih within)
    | finishBlock | finish => exact ih within

/-- A block that begins between lines is not stray. The layout then never puts a token below a line
that is over, which is what would bring it out of turn. -/
theorem strayed_of_blocksBetween {l : Layout} (hblocks : ∀ k ∈ l.blocks, k.stray = false)
    (h : blocksBetween l.begun.isSome events = true) : l.strayed events = false := by
  -- on the events: the layout goes on with no stray block open
  induction events generalizing l with
  | nil => rfl
  | cons e rest ih =>
    have hinnermost : l.innermost.stray = false := by
      rw [Layout.innermost]
      cases hopen : l.blocks with
      | nil => rfl
      | cons k more => exact hblocks k (by simp [hopen])
    rw [Layout.strayed, Bool.or_eq_false_iff]
    refine ⟨?_, ih ?_ ?_⟩
    · cases e <;> simp [Layout.strays, hinnermost]
    · cases e with
      | startBlock =>
        rw [blocksBetween, Bool.and_eq_true, Bool.not_eq_true', Option.isSome_eq_false_iff,
          Option.isNone_iff_eq_none] at h
        intro k hk
        rcases List.mem_cons.mp hk with rfl | hk
        · simp [h.1]
        · exact hblocks k hk
      | finishBlock => exact fun k hk => hblocks k (List.mem_of_mem_tail hk)
      | token | trivia | endLine | finish => exact hblocks
    · cases e with
      | token =>
        rw [blocksBetween] at h
        cases hbegun : l.begun <;> simpa [Layout.step, hbegun] using h
      | startBlock => exact (Bool.and_eq_true_iff.mp h).2
      | trivia | endLine | finishBlock | finish => exact h

/-- **The order of feeding.** Where blocks begin only between logical lines, the tokens come out in
the order in which they were fed, and so does a walk that skips nothing see them. -/
theorem descendants_run_of_blocksBetween (h : blocksBetween false events = true) (source : Text)
    (eofOffset : Int) :
    let tree := (Builder.run events).tree source eofOffset
    tree.descendants.map Token.event = events.filter isToken ++ [.token .eof [] eofOffset]
      ∧ tree.walk (fun seen t => (seen ++ [t.event], .visitChildren)) []
        = events.filter isToken ++ [.token .eof [] eofOffset] := by
  intro tree
  have horder := descendants_run (strayed_of_blocksBetween (by simp) h) source eofOffset
  refine ⟨horder, ?_⟩
  have hfoldl : ∀ (row : List Token) (seen : List Event),
      row.foldl (fun seen t => seen ++ [t.event]) seen = seen ++ row.map Token.event := by
    intro row
    induction row with
    | nil => simp
    | cons t rest ih => simp [ih]
  rw [Tree.walk_eq, Tree.traverse, Token.traverseAll_eq_foldl _ fun _ _ _ => rfl, hfoldl,
    List.nil_append]
  exact horder

/-- Brackets that do not match, a block that ends within a line, and two blocks of one line. -/
theorem descendants_run_of_blocksBetween_unbalanced :
    let word (c : Char) : Event := .token .identifier [c] 0
    let events : List Event := [.finishBlock, .token .operator ['('] 0, word 'a', .finishBlock,
      .token .operator [']'] 1, .token .operator [')'] 2, .endLine, .endLine, .startBlock,
      .startBlock, word 'b', .finishBlock, word 'c', .endLine, word 'd']
    blocksBetween false events = true
      ∧ ((Builder.run events).tree [] 3).descendants.map Token.event
        = events.filter isToken ++ [.token .eof [] 3] := by
  intro word events
  have hblocks : blocksBetween false events = true := by decide
  exact ⟨hblocks, (descendants_run_of_blocksBetween hblocks [] 3).1⟩

end Event

end Orthography
