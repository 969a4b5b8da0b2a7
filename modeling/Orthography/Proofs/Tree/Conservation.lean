/-
The builder loses nothing and doubles nothing.

Tokens go into blocks, lines and brackets, and trivia goes from the waiting pieces to three
different places: before the next token, behind the first token of a logical line, or before the
end of the source. Main statement, `Event.pieces_run_perm`: whatever the order of the calls, the
tree holds the tokens and the non-empty pieces of trivia that were fed, each of them once.

The invariant that carries it is `Builder.Sound`: tokens are numbered in the order of feeding, and
every number the builder keeps, be it as an owner, a block, a bracket or a line, is one of a token
fed before.
-/
import Mathlib.Data.List.Perm.Basic
import Mathlib.Data.List.Range
import Orthography.Proofs.Tree.Assembly

set_option autoImplicit false

namespace Orthography

/-! ## Pieces

Tokens and trivia are compared as the events that feed them. -/

/-- The event that feeds a piece of trivia. -/
def Trivia.event (piece : Trivia) : Event := .trivia piece.kind piece.text piece.offset

/-- The events that feed a token with its trivia. -/
def Token.pieces (t : Token) : List Event :=
  t.leading.map Trivia.event
    ++ .token t.kind t.text t.offset :: t.trailing.map Trivia.event

/-- The comments among pieces of trivia. -/
def commentsOf (pieces : List Trivia) : List Text :=
  (pieces.filter (·.kind = .comment)).map (·.text)

theorem commentsOf_append (pieces more : List Trivia) :
    commentsOf (pieces ++ more) = commentsOf pieces ++ commentsOf more := by
  rw [commentsOf, List.filter_append, List.map_append]
  rfl

theorem Token.comments_eq (t : Token) :
    t.comments = commentsOf t.leading ++ commentsOf t.trailing :=
  commentsOf_append t.leading t.trailing

/-- Does the event feed text? An empty piece of trivia is none. -/
def Event.isPiece : Event → Bool
  | .token .. => true
  | .trivia _ text _ => !text.isEmpty
  | _ => false

@[simp] theorem Token.pieces_shallow (t : Token) : t.shallow.pieces = t.pieces := rfl

theorem Token.pieces_endOfSource (offset : Int) (leading : List Trivia) :
    (Token.endOfSource offset leading).pieces
      = leading.map Trivia.event ++ [.token .eof [] offset] := rfl

/-- A tree's tokens are those of its top level, and the end of the source. -/
theorem Tree.descendants_eq (tree : Tree) (heof : tree.eof.children = []) :
    tree.descendants = Token.descendantsAll tree.tokens ++ [tree.eof] := by
  rw [Tree.descendants, Tree.roots, Token.descendantsAll_append]
  simp [Token.descendantsAll, Token.descendants_eq, heof]

namespace Builder

/-! ## Numbers -/

/-- Tokens are numbered as they come, and only numbers given away are in use. -/
structure Sound (b : Builder) : Prop where
  /-- The newest entry has the greatest number. -/
  ids : b.entries.map (·.id) = (List.range b.entries.length).reverse
  /-- An owner was fed before what it owns. -/
  owners : ∀ e ∈ b.entries, ∀ owner, e.owner = some owner → owner < e.id
  /-- Trailing trivia belongs to a token. -/
  trailing : ∀ p ∈ b.trailing, p.1 < b.entries.length
  /-- Blocks belong to tokens or to the top level. -/
  blocks : ∀ owner, some owner ∈ b.blocks → owner < b.entries.length
  /-- Open brackets are tokens. -/
  brackets : ∀ bracket ∈ b.brackets, bracket < b.entries.length
  /-- The first token of the open line is a token. -/
  head : ∀ head, b.head = some head → head < b.entries.length
  /-- So is that of the line before. -/
  lastHead : ∀ head, b.lastHead = some head → head < b.entries.length

/-- If entries are numbered from zero on, the next number is how many there are. -/
theorem nextId_of_ids {b : Builder}
    (h : b.entries.map (·.id) = (List.range b.entries.length).reverse) :
    b.nextId = b.entries.length := by
  rw [nextId]
  cases hentries : b.entries with
  | nil => rfl
  | cons e older =>
    rw [hentries, List.map_cons, List.length_cons, List.range_succ, List.reverse_append] at h
    exact congrArg (· + 1) (List.cons.inj h).1

theorem Sound.blockOwner_lt {b : Builder} (h : b.Sound) {owner : Nat}
    (howner : b.blockOwner = some owner) : owner < b.entries.length := by
  rw [blockOwner] at howner
  cases hblocks : b.blocks with
  | nil => simp [hblocks] at howner
  | cons top rest =>
    rw [hblocks, List.headD_cons] at howner
    exact h.blocks owner (by rw [hblocks, howner]; exact List.mem_cons_self)

/-- The owner of the next token is a token or the top level. -/
theorem Sound.ownerOfNext_lt {b : Builder} (h : b.Sound) {owner : Nat}
    (howner : b.ownerOfNext = some owner) : owner < b.entries.length := by
  rw [ownerOfNext] at howner
  split at howner
  · next bracket rest hbrackets =>
    cases howner
    exact h.brackets _ (by rw [hbrackets]; exact List.mem_cons_self)
  · next head hhead =>
    exact h.head owner (by rw [← howner]; assumption)
  · exact h.blockOwner_lt howner

/-- The open brackets behind a token are the token or were open before. -/
theorem mem_bracketsAfter {kind : TokenKind} {text : Text} {id bracket : Nat} {brackets : List Nat}
    (h : bracket ∈ bracketsAfter kind text id brackets) : bracket = id ∨ bracket ∈ brackets := by
  rw [bracketsAfter] at h
  split at h
  · split at h
    · exact List.mem_cons.mp h
    · split at h
      · exact Or.inr (List.mem_of_mem_tail h)
      · exact Or.inr h
  · exact Or.inr h

theorem sound_empty : Sound {} where
  ids := rfl
  owners := by simp
  trailing := by simp
  blocks := by simp
  brackets := by simp
  head := by simp
  lastHead := by simp

/-- A token gets the next number. -/
theorem Sound.addToken {b : Builder} (h : b.Sound) (kind : TokenKind) (text : Text) (offset : Int) :
    (b.addToken kind text offset).Sound := by
  have hnext := nextId_of_ids h.ids
  constructor
  · simp [Builder.addToken, h.ids, hnext, List.range_succ]
  · intro e he owner howner
    rcases List.mem_cons.mp he with rfl | he
    · simpa [hnext] using h.ownerOfNext_lt howner
    · exact h.owners e he owner howner
  · intro p hp
    exact Nat.lt_succ_of_lt (h.trailing p hp)
  · intro owner howner
    exact Nat.lt_succ_of_lt (h.blocks owner howner)
  · intro bracket hbracket
    rcases mem_bracketsAfter hbracket with rfl | hbracket
    · simp [Builder.addToken, hnext]
    · exact Nat.lt_succ_of_lt (h.brackets bracket hbracket)
  · intro head hhead
    -- a new head is the token itself
    have hold : b.head = some head ∨ b.nextId = head := by
      simp only [Builder.addToken] at hhead
      cases hb : b.head <;> cases hempty : b.brackets.isEmpty <;> simp_all
    rcases hold with hold | rfl
    · exact Nat.lt_succ_of_lt (h.head head hold)
    · simp [Builder.addToken, hnext]
  · intro head hhead
    exact Nat.lt_succ_of_lt (h.lastHead head hhead)

/-- Trivia that trails does so behind a token. -/
theorem Sound.addTrivia {b : Builder} (h : b.Sound) (piece : Trivia) :
    (b.addTrivia piece).Sound := by
  rw [Builder.addTrivia]
  split
  · exact h
  split
  · split
    · next head hhead =>
      -- what trails is numbered by the first token of the open line
      refine { h with trailing := ?_ }
      intro p hp
      rcases List.mem_append.mp hp with hp | hp
      · obtain ⟨moved, -, rfl⟩ := List.mem_map.mp (List.mem_reverse.mp hp)
        exact h.head head hhead
      · exact h.trailing p hp
    · exact { h with }
  · exact { h with }

/-- Every event keeps the numbers in order. Only tokens and trivia touch what is numbered; the other
events open and close lines and blocks. -/
theorem Sound.step {b : Builder} (h : b.Sound) (e : Event) : (b.step e).Sound := by
  cases e with
  | token kind text offset => exact h.addToken kind text offset
  | trivia kind text offset => exact h.addTrivia ⟨kind, text, offset⟩
  | endLine =>
    refine
      { h with
        brackets := by simp [Builder.step]
        head := by simp [Builder.step]
        lastHead := ?_ }
    intro head hhead
    cases hb : b.head with
    | none => exact h.lastHead head (by simpa [Builder.step, hb] using hhead)
    | some old => exact h.head head (by simpa [Builder.step, hb] using hhead)
  | startBlock =>
    -- the new block belongs to the line before, or where there is none to the block around it
    refine { h with blocks := ?_ }
    intro owner howner
    rcases List.mem_cons.mp howner with howner | howner
    · cases hlast : b.lastHead with
      | none => exact h.blockOwner_lt (by simpa [hlast] using howner.symm)
      | some last => exact h.lastHead owner (by simpa [hlast] using howner.symm)
    · exact h.blocks owner howner
  | finishBlock =>
    refine { h with blocks := ?_ }
    intro owner howner
    exact h.blocks owner (List.mem_of_mem_tail howner)
  | finish => exact { h with }

theorem Sound.foldl {b : Builder} (h : b.Sound) (events : List Event) :
    (events.foldl Builder.step b).Sound := by
  induction events generalizing b with
  | nil => exact h
  | cons e rest ih => exact ih (h.step e)

theorem sound_run (events : List Event) : (run events).Sound := sound_empty.foldl events

/-! ## From numbers to the forest -/

/-- Each entry is owned by one before it or by the top level. So the entries, from the oldest on,
can be put together to a tree without anything being left over. -/
theorem rooted_reverse {entries : List Entry}
    (hids : entries.map (·.id) = (List.range entries.length).reverse)
    (howners : ∀ e ∈ entries, ∀ owner, e.owner = some owner → owner < e.id) :
    Rooted [none] entries.reverse := by
  induction entries with
  | nil => trivial
  | cons e older ih =>
    rw [List.map_cons, List.length_cons, List.range_succ, List.reverse_append] at hids
    have hid : e.id = older.length := (List.cons.inj hids).1
    have hids : older.map (·.id) = (List.range older.length).reverse := (List.cons.inj hids).2
    -- the keys before `e` are the numbers below its own, so its owner is one of them
    have hkeys : (older.reverse.map fun d => some d.id).reverse
        = ((List.range older.length).reverse).map some := by
      rw [← hids, List.map_map, ← List.map_reverse, List.reverse_reverse]
      rfl
    rw [List.reverse_cons, rooted_append_singleton, hkeys]
    refine ⟨ih hids fun d hd => howners d (List.mem_cons_of_mem _ hd), ?_, ?_⟩
    · cases howner : e.owner with
      | none => simp
      | some owner =>
        have hlt := howners e List.mem_cons_self owner howner
        simp [hid ▸ hlt]
    · simp [hid]

/-- The tokens of the top level and below are the entries, each of them once. -/
theorem Sound.descendants_perm {b : Builder} (h : b.Sound) :
    ((Token.descendantsAll b.topLevel).map Token.shallow).Perm (b.entries.reverse.map b.bare) := by
  have hperm := b.forest_perm (List.nodup_singleton none) (rooted_reverse h.ids h.owners)
  rw [List.flatMap_singleton, listing, ← topLevel_eq_forest] at hperm
  exact hperm

/-! ## What a builder holds -/

/-- Every piece that was fed and not thrown away. -/
def held (b : Builder) : List Event :=
  b.entries.flatMap (fun e => e.leading.map Trivia.event ++ [.token e.kind e.text e.offset])
    ++ b.trailing.map (·.2.event) ++ b.waiting.map Trivia.event

/-- Sorted by keys, a list is what it was. -/
theorem flatMap_filter_perm {α : Type} {keys : List Nat} (hkeys : keys.Nodup)
    {l : List (Nat × α)} (h : ∀ p ∈ l, p.1 ∈ keys) :
    (keys.flatMap fun key => l.filter (·.1 = key)).Perm l := by
  induction keys generalizing l with
  | nil =>
    cases l with
    | nil => simp
    | cons p rest => exact absurd (h p List.mem_cons_self) (by simp)
  | cons key rest ih =>
    obtain ⟨hkey, hrest⟩ := List.nodup_cons.mp hkeys
    -- leaving out what has the key `key` changes nothing for the other keys
    have hothers : (rest.flatMap fun other => l.filter (·.1 = other))
        = rest.flatMap fun other =>
          (l.filter fun p => !decide (p.1 = key)).filter (·.1 = other) := by
      refine List.flatMap_congr fun other hother => ?_
      rw [List.filter_filter]
      refine List.filter_congr fun p _ => ?_
      have hne : p.1 = other → p.1 ≠ key := fun heq hp => hkey (hp ▸ heq ▸ hother)
      by_cases hp : p.1 = other <;> simp [hp]
      exact fun heq => hne hp (hp.trans heq)
    rw [List.flatMap_cons, hothers]
    refine (List.Perm.append_left _ (ih hrest ?_)).trans (List.filter_append_perm _ l)
    intro p hp
    rw [List.mem_filter] at hp
    rcases List.mem_cons.mp (h p hp.1) with heq | hmem
    · simp [heq] at hp
    · exact hmem

/-- The trailing trivia of all tokens is all trailing trivia. -/
theorem Sound.trailing_perm {b : Builder} (h : b.Sound) :
    (b.entries.flatMap fun e => (b.trailingOf e.id).map Trivia.event).Perm
      (b.trailing.map (·.2.event)) := by
  have hkeys : (b.entries.map (·.id)).Nodup := by
    rw [h.ids]
    exact List.nodup_reverse.mpr List.nodup_range
  have hsorted := flatMap_filter_perm hkeys (l := b.trailing) (by
    intro p hp
    rw [h.ids]
    simpa using h.trailing p hp)
  refine List.Perm.trans ?_ (hsorted.map (·.2.event))
  rw [List.flatMap_map, List.map_flatMap]
  refine List.Perm.flatMap_left _ fun e _ => ?_
  rw [trailingOf, List.map_reverse, List.map_map]
  exact List.reverse_perm _

/-- The tree holds what the builder holds, and the end of the source. -/
theorem Sound.tree_pieces_perm {b : Builder} (h : b.Sound) (source : Text) (eofOffset : Int) :
    ((b.tree source eofOffset).descendants.flatMap Token.pieces).Perm
      (b.held ++ [.token .eof [] eofOffset]) := by
  have htop : ((Token.descendantsAll b.topLevel).flatMap Token.pieces).Perm
      (b.entries.flatMap fun e => e.leading.map Trivia.event ++ [.token e.kind e.text e.offset]
        ++ (b.trailingOf e.id).map Trivia.event) := by
    have hperm := (h.descendants_perm.trans (b.entries.reverse_perm.map b.bare)).flatMap_right
      Token.pieces
    simp only [List.flatMap_map, Token.pieces_shallow] at hperm
    refine hperm.trans (List.Perm.of_eq (List.flatMap_congr fun e _ => ?_))
    simp [Token.pieces, bare, assembleEntry]
  -- trailing trivia is noted apart from the entries, so it is put behind all of them
  have hsplit := (htop.trans (List.flatMap_append_perm b.entries _ _).symm).trans
    (h.trailing_perm.append_left _)
  rw [Tree.descendants_eq _ rfl, List.flatMap_append, List.flatMap_singleton]
  refine (hsplit.append_right _).trans (List.Perm.of_eq ?_)
  simp [tree, held, Token.pieces_endOfSource]

/-! ## What an event adds -/

/-- A token takes over what waits and adds itself, so that what the builder holds grows by the
token. -/
theorem held_addToken (b : Builder) (kind : TokenKind) (text : Text) (offset : Int) :
    (b.addToken kind text offset).held.Perm (b.held ++ [.token kind text offset]) := by
  simp only [held, addToken, List.flatMap_cons, List.map_nil, List.append_nil, List.append_assoc]
  rw [← List.append_assoc (b.waiting.map Trivia.event)]
  refine List.perm_append_comm.trans ?_
  simp only [List.append_assoc]
  exact List.Perm.refl _

/-- Trivia that is not empty waits, or trails together with what waited. Either way it is held;
empty trivia is not kept at all. -/
theorem held_addTrivia (b : Builder) (piece : Trivia) :
    (b.addTrivia piece).held.Perm
      (b.held ++ if piece.text.isEmpty then [] else [piece.event]) := by
  rw [addTrivia]
  split
  · simp
  split
  · split
    · simp only [held, List.map_append, List.map_reverse, List.map_map, List.map_nil,
        List.append_nil, List.append_assoc]
      -- the comment takes the blanks that waited with it, the newest first
      refine List.Perm.append_left _ ?_
      refine List.perm_append_comm.trans (List.Perm.append_left _ ?_)
      refine (List.reverse_perm _).trans (List.Perm.of_eq ?_)
      simp [Function.comp_def]
    · simp [held]
  · simp [held]

/-- Every event but the one that ends the tree adds what it feeds. -/
theorem held_step (b : Builder) {e : Event} (he : e ≠ .finish) :
    (b.step e).held.Perm (b.held ++ [e].filter Event.isPiece) := by
  cases e with
  | token kind text offset => exact b.held_addToken kind text offset
  | trivia kind text offset =>
    refine (b.held_addTrivia ⟨kind, text, offset⟩).trans (List.Perm.of_eq ?_)
    cases text <;> simp [Event.isPiece, Trivia.event]
  | endLine | startBlock | finishBlock => simp [step, held, Event.isPiece]
  | finish => exact absurd rfl he

/-- A run adds all that is fed. -/
theorem held_foldl (b : Builder) {events : List Event} (h : .finish ∉ events) :
    (events.foldl step b).held.Perm (b.held ++ events.filter Event.isPiece) := by
  induction events generalizing b with
  | nil => simp
  | cons e rest ih =>
    rw [List.mem_cons, not_or] at h
    refine (ih (b.step e) h.2).trans ?_
    refine ((b.held_step (Ne.symm h.1)).append_right _).trans (List.Perm.of_eq ?_)
    rw [List.append_assoc, ← List.filter_append, List.singleton_append]

end Builder

/-- **Conservation.** The tree holds the tokens and the non-empty trivia that were fed, each of them
once, and the end of the source. -/
theorem Event.pieces_run_perm {events : List Event} (h : .finish ∉ events) (source : Text)
    (eofOffset : Int) :
    (((Builder.run events).tree source eofOffset).descendants.flatMap Token.pieces).Perm
      (events.filter Event.isPiece ++ [.token .eof [] eofOffset]) :=
  ((Builder.sound_run events).tree_pieces_perm source eofOffset).trans
    ((Builder.held_foldl {} h).append_right _)

end Orthography
