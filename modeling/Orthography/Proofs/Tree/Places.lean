/-
Where a token stands in a tree.

A place is what can be said of a token by its position alone: its number in document order, and the
tokens it lies below. The places of a tree determine it, so this is the form in which to compare a
tree with a rule about owners, or with what a walk that skips some tokens gets to see.

Main statement, `Builder.Sound.places_tree`: where every token was owned by the spine, the builder's
notes are the places. The number of a note is the number of the token in document order, and the
chain of owners in the notes is the chain of tokens above it.
-/
import Orthography.Proofs.Tree.FeedOrder
import Orthography.Proofs.Tree.Traversal

set_option autoImplicit false

namespace Orthography

/-! ## Places -/

/-- A token and its position in a tree. Tokens stand here without their children. -/
structure Place where
  /-- The number of the token in document order. -/
  number : Nat
  /-- The tokens it lies below with their numbers, the nearest first. -/
  above : List (Nat × Token)
  token : Token
  deriving Repr

/-- The number of the token whose child it is; a top-level token is nobody's. -/
def Place.owner (p : Place) : Option Nat := p.above.head?.map Prod.fst

namespace Token

mutual

/-- The places of a token and of all below it, in document order. It lies below `above`, and the
numbers go on from `n`. -/
def places (above : List (Nat × Token)) (n : Nat) : Token → List Place
  | ⟨kind, text, offset, leading, trailing, children⟩ =>
    let t : Token := ⟨kind, text, offset, leading, trailing, []⟩
    ⟨n, above, t⟩ :: placesAll ((n, t) :: above) (n + 1) children

/-- The same for a row of tokens. -/
def placesAll (above : List (Nat × Token)) (n : Nat) : List Token → List Place
  | [] => []
  | t :: rest => places above n t ++ placesAll above (n + t.descendants.length) rest

end

/-- The first token of a row, what is below it, and the other ones. -/
theorem placesAll_cons (above : List (Nat × Token)) (n : Nat) (t : Token) (rest : List Token) :
    placesAll above n (t :: rest)
      = ⟨n, above, t.shallow⟩ :: (placesAll ((n, t.shallow) :: above) (n + 1) t.children
        ++ placesAll above (n + 1 + countAll t.children) rest) := by
  rw [placesAll, length_descendants, ← Nat.add_assoc]
  cases t
  rfl

theorem placesAll_append (above : List (Nat × Token)) (n : Nat) (row more : List Token) :
    placesAll above n (row ++ more)
      = placesAll above n row ++ placesAll above (n + countAll row) more := by
  induction row generalizing n with
  | nil => simp [placesAll, countAll, descendantsAll]
  | cons t rest ih =>
    rw [List.cons_append, placesAll, placesAll, ih, List.append_assoc]
    simp only [countAll, descendantsAll, List.length_append, Nat.add_assoc]

/-- What is above a place in a row is above the row or in it. -/
theorem bounds_of_mem_placesAll {above : List (Nat × Token)} {n : Nat} {row : List Token}
    {p : Place} (h : p ∈ placesAll above n row) :
    ∀ a ∈ p.above, a ∈ above ∨ n ≤ a.1 ∧ a.1 < n + countAll row := by
  induction row using rowRec generalizing above n with
  | nil => simp [placesAll] at h
  | cons t row hbelow hbehind =>
    have hcount := countAll_cons_eq t row
    intro a ha
    rw [placesAll_cons, List.mem_cons, List.mem_append] at h
    rcases h with rfl | h | h
    · exact Or.inl ha
    · rcases hbelow h a ha with hmem | hbounds
      · rcases List.mem_cons.mp hmem with rfl | hmem
        · exact Or.inr ⟨Nat.le_refl n, by omega⟩
        · exact Or.inl hmem
      · exact Or.inr (by omega)
    · rcases hbehind h a ha with hmem | hbounds
      · exact Or.inl hmem
      · exact Or.inr (by omega)

/-- What is above a row is above each place in it. -/
theorem above_subset_of_mem_placesAll {above : List (Nat × Token)} {n : Nat} {row : List Token}
    {p : Place} (h : p ∈ placesAll above n row) : above ⊆ p.above := by
  induction row using rowRec generalizing above n with
  | nil => simp [placesAll] at h
  | cons t row hbelow hbehind =>
    rw [placesAll_cons, List.mem_cons, List.mem_append] at h
    rcases h with rfl | h | h
    · exact List.Subset.refl _
    · exact fun a ha => hbelow h (List.mem_cons_of_mem _ ha)
    · exact hbehind h

/-- The places of several rows, each of them below tokens of its own. -/
def placesOfRows (n : Nat) : List (List (Nat × Token) × List Token) → List Place
  | [] => []
  | (above, row) :: rest => placesAll above n row ++ placesOfRows (n + countAll row) rest

/-- Rows without tokens take no numbers. -/
theorem placesOfRows_append_of_nil (n : Nat) {before : List (List (Nat × Token) × List Token)}
    (h : ∀ r ∈ before, r.2 = []) (rows : List (List (Nat × Token) × List Token)) :
    placesOfRows n (before ++ rows) = placesOfRows n rows := by
  induction before with
  | nil => rfl
  | cons r rest ih =>
    obtain ⟨above, row⟩ := r
    obtain rfl : row = [] := h _ List.mem_cons_self
    exact ih fun r hr => h r (List.mem_cons_of_mem _ hr)

/-- A token in front of a row gives its children a row of their own. -/
theorem placesOfRows_cons (n : Nat) (above : List (Nat × Token)) (t : Token) (row : List Token)
    (rows : List (List (Nat × Token) × List Token)) :
    placesOfRows n ((above, t :: row) :: rows)
      = ⟨n, above, t.shallow⟩
        :: placesOfRows (n + 1)
          (((n, t.shallow) :: above, t.children) :: (above, row) :: rows) := by
  have hcount : n + countAll (t :: row) = n + 1 + countAll t.children + countAll row := by
    rw [countAll_cons_eq, ← Nat.add_assoc, ← Nat.add_assoc]
  rw [placesOfRows, placesAll_cons, hcount]
  simp only [placesOfRows, List.cons_append, List.append_assoc]

end Token

/-- The places of all tokens of a tree, in document order. -/
def Tree.places (tree : Tree) : List Place := Token.placesAll [] 0 tree.roots

/-- The tokens of the places are those of the tree. -/
theorem Tree.map_token_places (tree : Tree) :
    tree.places.map (·.token) = tree.descendants.map Token.shallow := by
  rw [places, descendants]
  generalize tree.roots = row, ([] : List (Nat × Token)) = above, 0 = n
  induction row using Token.rowRec generalizing above n with
  | nil => rfl
  | cons t rest hbelow hbehind =>
    rw [Token.placesAll_cons, Token.descendantsAll_cons, List.map_cons, List.map_append, hbelow,
      hbehind, List.map_cons, List.map_append]

/-- The numbers of the places count the tokens of the tree. -/
theorem Tree.map_number_places (tree : Tree) :
    tree.places.map (·.number) = List.range tree.descendants.length := by
  rw [places, descendants, List.range_eq_range']
  generalize tree.roots = row, ([] : List (Nat × Token)) = above, 0 = n
  induction row using Token.rowRec generalizing above n with
  | nil => rfl
  | cons t rest hbelow hbehind =>
    rw [Token.placesAll_cons, Token.descendantsAll_cons, List.map_cons, List.map_append, hbelow,
      hbehind, List.length_cons, List.length_append, List.range'_succ, ← List.range'_append_1]
    rfl

/-! ## Places from notes -/

namespace Builder

/-- Where entries are in turn, they stand in the forest as their notes say. For each owner on the
spine, `line` tells the tokens from it upwards. -/
theorem placesOfRows_of_inTurn (b : Builder) (line : Option Nat → List (Nat × Token))
    {spine : List (Option Nat)} {fed : List Entry} {n : Nat}
    (hline : ∀ e ∈ fed, line (some e.id) = (e.id, b.bare e) :: line e.owner)
    (hids : fed.map (·.id) = List.range' n fed.length) (hfresh : Fresh spine fed)
    (h : InTurn spine fed) :
    Token.placesOfRows n (spine.map fun key => (line key, b.forest fed key))
      = fed.map fun e => ⟨e.id, line e.owner, b.bare e⟩ := by
  -- on the entries, the oldest first: each takes a number and opens a row for what it owns
  induction fed generalizing spine n with
  | nil =>
    rw [← List.append_nil (spine.map _), Token.placesOfRows_append_of_nil]
    · rfl
    · rintro r hr
      obtain ⟨key, -, rfl⟩ := List.mem_map.mp hr
      rfl
  | cons e rest ih =>
    obtain ⟨howner, hrest⟩ := h
    obtain ⟨before, behind, rfl, -, hstep⟩ := exists_spine_split howner
    rw [hstep] at hrest
    rw [List.map_cons, List.length_cons, List.range'_succ] at hids
    obtain ⟨rfl, hids⟩ := List.cons.inj hids
    have ih := ih (fun d hd => hline d (List.mem_cons_of_mem _ hd)) hids hfresh.tail hrest
    have hnodup := hfresh.nodup
    have hnew := hfresh.not_mem
    rw [List.nodup_middle, List.nodup_cons, List.mem_append, not_or] at hnodup
    simp only [List.mem_append, List.mem_cons, not_or] at hnew
    have hbefore : ∀ key ∈ before, b.forest (e :: rest) key = [] := by
      intro key hkey
      rw [b.forest_cons_of_ne rest (fun heq => hnodup.1.1 (heq ▸ hkey)) fun heq =>
        hnew.1 (heq ▸ hkey)]
      exact b.forest_eq_nil (hrest.owner_notMem hfresh hkey)
    have hbehind : (behind.map fun key => (line key, b.forest (e :: rest) key))
        = behind.map fun key => (line key, b.forest rest key) := by
      refine List.map_congr_left fun key hkey => ?_
      rw [b.forest_cons_of_ne rest (fun heq => hnodup.1.2 (heq ▸ hkey)) fun heq =>
        hnew.2.2 (heq ▸ hkey)]
    have howner : b.forest (e :: rest) e.owner = b.node rest e :: b.forest rest e.owner := by
      rw [forest_cons, if_pos rfl, if_neg hnew.2.1, List.singleton_append]
    rw [List.map_append, Token.placesOfRows_append_of_nil, List.map_cons, hbehind, howner,
      Token.placesOfRows_cons, shallow_node]
    · rw [List.map_cons, ← ih, List.map_cons, List.map_cons, hline e List.mem_cons_self]
      rfl
    · rintro r hr
      obtain ⟨key, hkey, rfl⟩ := List.mem_map.mp hr
      exact hbefore key hkey

/-- The tokens from an owner upwards, as the entries have it, the newest entry first. -/
def lineage (b : Builder) : List Entry → Option Nat → List (Nat × Token)
  | _, none => []
  | [], some _ => []
  | e :: older, some n =>
    if e.id = n then (n, b.bare e) :: b.lineage older e.owner else b.lineage older (some n)

@[simp] theorem lineage_none (b : Builder) (entries : List Entry) :
    b.lineage entries none = [] := by
  cases entries <;> rfl

/-- A newer entry is in no lineage of an older one. -/
theorem lineage_cons_of_ne (b : Builder) {e : Entry} {owner : Option Nat} (older : List Entry)
    (h : some e.id ≠ owner) : b.lineage (e :: older) owner = b.lineage older owner := by
  cases owner with
  | none => simp
  | some n => rw [lineage, if_neg fun heq => h (congrArg some heq)]

/-- Above an entry are its owner and the tokens above that one. Owners come before what they own, so
following them up ends at the top level. -/
theorem Sound.lineage_eq {b : Builder} (h : b.Sound) :
    ∀ e ∈ b.entries,
      b.lineage b.entries (some e.id) = (e.id, b.bare e) :: b.lineage b.entries e.owner := by
  have hids := h.ids
  have howners := h.owners
  revert hids howners
  generalize b.entries = entries
  intro hids howners
  induction entries with
  | nil => simp
  | cons d older ih =>
    rw [List.map_cons, List.length_cons, List.range_succ, List.reverse_append] at hids
    have hid : d.id = older.length := (List.cons.inj hids).1
    have hids : older.map (·.id) = (List.range older.length).reverse := (List.cons.inj hids).2
    have hlt : ∀ e ∈ older, e.id < d.id := by
      intro e he
      have hmem : e.id ∈ older.map (·.id) := List.mem_map_of_mem he
      rw [hids, List.mem_reverse, List.mem_range] at hmem
      omega
    have ih := ih hids fun e he => howners e (List.mem_cons_of_mem _ he)
    intro e he
    -- an owner is older than what it owns, so the newest entry owns nothing
    have howner : some d.id ≠ e.owner := by
      intro heq
      have hless := howners e he d.id heq.symm
      rcases List.mem_cons.mp he with rfl | he
      · omega
      · have := hlt e he
        omega
    rw [b.lineage_cons_of_ne older howner]
    rcases List.mem_cons.mp he with rfl | he
    · rw [lineage, if_pos rfl]
    · have hne : some d.id ≠ some e.id := fun heq => Nat.ne_of_gt (hlt e he) (Option.some.inj heq)
      rw [b.lineage_cons_of_ne older hne, ih e he]

/-- What an entry's place is in the tree. -/
def placeOf (b : Builder) (e : Entry) : Place := ⟨e.id, b.lineage b.entries e.owner, b.bare e⟩

/-- **Places.** Where every token was in turn, the tokens stand in the tree in the order of feeding,
each below its owner and what is above its owner. -/
theorem Sound.places_tree {b : Builder} (h : b.Sound) (hturn : InTurn [none] b.entries.reverse)
    (source : Text) (eofOffset : Int) :
    (b.tree source eofOffset).places
      = b.entries.reverse.map b.placeOf
        ++ [⟨b.entries.length, [], Token.endOfSource eofOffset b.waiting⟩] := by
  have hids : b.entries.reverse.map (·.id) = List.range' 0 b.entries.reverse.length := by
    rw [List.map_reverse, h.ids, List.reverse_reverse, List.length_reverse, List.range_eq_range']
  have hrows := b.placesOfRows_of_inTurn (b.lineage b.entries)
    (fun e he => h.lineage_eq e (List.mem_reverse.mp he)) hids h.fresh hturn
  rw [List.map_singleton, Token.placesOfRows, lineage_none, Token.placesOfRows, List.append_nil,
    ← topLevel_eq_forest] at hrows
  have hcount : Token.countAll b.topLevel = b.entries.length := by
    have hperm := h.descendants_perm.length_eq
    rwa [List.length_map, List.length_map, List.length_reverse] at hperm
  have heof : Token.placesAll [] b.entries.length [Token.endOfSource eofOffset b.waiting]
      = [⟨b.entries.length, [], Token.endOfSource eofOffset b.waiting⟩] := rfl
  rw [Tree.places, Tree.roots, Token.placesAll_append, Nat.zero_add, ← heof, ← hcount]
  exact congrArg (· ++ _) hrows

/-- Every number given away belongs to an entry. -/
theorem Sound.exists_entry {b : Builder} (h : b.Sound) {n : Nat} (hn : n < b.entries.length) :
    ∃ e ∈ b.entries, e.id = n := by
  have hmem : n ∈ b.entries.map (·.id) := by
    rw [h.ids]
    simpa using hn
  obtain ⟨e, he, heq⟩ := List.mem_map.mp hmem
  exact ⟨e, he, heq⟩

theorem Sound.id_lt {b : Builder} (h : b.Sound) {e : Entry} (he : e ∈ b.entries) :
    e.id < b.entries.length := by
  have hmem : e.id ∈ b.entries.map (·.id) := List.mem_map_of_mem he
  rw [h.ids] at hmem
  simpa using hmem

/-- The token above an entry is its owner. -/
theorem Sound.owner_placeOf {b : Builder} (h : b.Sound) {e : Entry} (he : e ∈ b.entries) :
    (b.placeOf e).owner = e.owner := by
  rw [placeOf, Place.owner]
  cases howner : e.owner with
  | none => simp
  | some n =>
    obtain ⟨d, hd, rfl⟩ := h.exists_entry ((h.owners e he n howner).trans (h.id_lt he))
    rw [h.lineage_eq d hd]
    rfl

end Builder

end Orthography
