/-
Where document order is lost.

A block belongs to the line before it. That line has ended when a block begins, unless an
unfinished literal has swallowed a line end: then a block may begin while a logical line is open,
and it is given to the line before the open one. What stands in such a *stray* block is hung on a
token that lies behind the spine, so it comes out before the tokens of the open line although it
was fed behind them.

`Layout` follows the events with line numbers alone and marks stray blocks. Main statement,
`Builder.inTurn_run_iff`: every token is owned by the spine exactly when no logical line begins
directly in a stray block. A block that begins while a line is open is not yet stray if the open
line itself began in a block of the line before, since then both blocks have the same owner; and a
stray block does no harm while no line begins in it.

The proof runs the builder beside the layout. `Tracks` is what ties them together.
-/
import Mathlib.Data.List.Basic
import Orthography.Proofs.Tree.Conservation

set_option autoImplicit false

namespace Orthography

/-! ## Lines and blocks -/

/-- An open block. -/
structure Block where
  /-- The logical line it belongs to, counted from one; zero is the top level. -/
  line : Nat
  /-- Did it begin while a line was open that lies in no block of the line it belongs to? -/
  stray : Bool
  deriving DecidableEq, Repr

/-- What the events tell about lines and blocks. -/
structure Layout where
  /-- How many logical lines with tokens have ended. -/
  lines : Nat := 0
  /-- For an open logical line, the line to which the block belongs that it began in. -/
  begun : Option Nat := none
  /-- The open blocks, the innermost first. -/
  blocks : List Block := []
  deriving DecidableEq, Repr

namespace Layout

/-- The innermost open block; where none is open, the top level. -/
def innermost (l : Layout) : Block := l.blocks.headD ⟨0, false⟩

/-- The layout behind an event. -/
def step (l : Layout) : Event → Layout
  | .token .. => { l with begun := l.begun <|> some l.innermost.line }
  | .endLine => { l with lines := if l.begun.isSome then l.lines + 1 else l.lines, begun := none }
  | .startBlock => { l with blocks := ⟨l.lines, l.begun.any (· != l.lines)⟩ :: l.blocks }
  | .finishBlock => { l with blocks := l.blocks.tail }
  | .trivia .. | .finish => l

/-- Does the event begin a logical line directly in a stray block? -/
def strays (l : Layout) : Event → Bool
  | .token .. => l.begun.isNone && l.innermost.stray
  | _ => false

/-- Does one of the events begin a logical line directly in a stray block? -/
def strayed (l : Layout) : List Event → Bool
  | [] => false
  | e :: rest => l.strays e || (l.step e).strayed rest

end Layout

/-! ## Owners in order

`rank` puts the top level before all tokens. The first tokens of the lines that have ended are kept
with the newest first; `ownerOf heads n` is that of line `n`, and the top level for line zero. -/

/-- The place of an owner among all owners. -/
def rank : Option Nat → Nat
  | none => 0
  | some n => n + 1

@[simp] theorem rank_none : rank none = 0 := rfl

@[simp] theorem rank_some (n : Nat) : rank (some n) = n + 1 := rfl

/-- The first token of a line by its number, among those of the lines that have ended. -/
def ownerOf (heads : List Nat) (line : Nat) : Option Nat := heads[heads.length - line]?

theorem ownerOf_zero (heads : List Nat) : ownerOf heads 0 = none := by
  simp [ownerOf]

theorem ownerOf_length (heads : List Nat) : ownerOf heads heads.length = heads.head? := by
  rw [ownerOf, Nat.sub_self, List.head?_eq_getElem?]

/-- A line that ends changes no number. -/
theorem ownerOf_cons (head : Nat) {heads : List Nat} {line : Nat} (h : line ≤ heads.length) :
    ownerOf (head :: heads) line = ownerOf heads line := by
  rw [ownerOf, ownerOf, List.length_cons, Nat.succ_sub h, List.getElem?_cons_succ]

theorem mem_of_ownerOf {heads : List Nat} {line head : Nat} (h : ownerOf heads line = some head) :
    head ∈ heads := List.mem_of_getElem? h

/-- Where all first tokens lie before a token, so do all owners of lines. -/
theorem rank_ownerOf_le {heads : List Nat} {bound : Nat} (h : ∀ head ∈ heads, head < bound)
    (line : Nat) : rank (ownerOf heads line) ≤ bound := by
  cases howner : ownerOf heads line with
  | none => simp
  | some head => exact h head (mem_of_ownerOf howner)

/-- A later line has a later first token. -/
theorem rank_ownerOf_lt {heads : List Nat} (hheads : heads.Pairwise (· > ·)) {m n : Nat}
    (hmn : m < n) (hn : n ≤ heads.length) : rank (ownerOf heads m) < rank (ownerOf heads n) := by
  -- the newest comes first, so a later line stands nearer to the front
  have hlt : heads.length - n < heads.length := by omega
  have hsome : ownerOf heads n = some heads[heads.length - n] := by
    rw [ownerOf, List.getElem?_eq_getElem hlt]
  cases hm : ownerOf heads m with
  | none => simp [hsome]
  | some head =>
    have hm' : heads.length - m < heads.length := by
      by_contra hnot
      rw [ownerOf, List.getElem?_eq_none (by omega)] at hm
      simp at hm
    rw [ownerOf, List.getElem?_eq_getElem hm'] at hm
    have hgt := List.pairwise_iff_getElem.mp hheads (heads.length - n) (heads.length - m) hlt hm'
      (by omega)
    rw [Option.some.inj hm] at hgt
    simpa [hsome] using hgt

/-- Of two lines the later one has no earlier first token. -/
theorem rank_ownerOf_mono {heads : List Nat} (hheads : heads.Pairwise (· > ·)) {m n : Nat}
    (hmn : m ≤ n) (hn : n ≤ heads.length) : rank (ownerOf heads m) ≤ rank (ownerOf heads n) := by
  rcases Nat.eq_or_lt_of_le hmn with rfl | hlt
  · exact Nat.le_refl _
  · exact Nat.le_of_lt (rank_ownerOf_lt hheads hlt hn)

namespace Builder

/-! ## The spine -/

/-- The newest token, its owner, and so on up to the top level. -/
def spine (b : Builder) : List (Option Nat) := b.entries.reverse.foldl spineStep [none]

/-- The spine runs from the newest token up, so its numbers fall. -/
structure Falling (spine : List (Option Nat)) (count : Nat) : Prop where
  /-- Each owner was fed before what it owns. -/
  falls : spine.Pairwise fun x y => rank y < rank x
  /-- No number is too great. -/
  bounded : ∀ x ∈ spine, rank x ≤ count
  /-- The top level is at its end. -/
  top : none ∈ spine

/-- What is left of a falling spine from one of its places on. As ranks fall along the spine, these
are the members that are no deeper than that place. -/
theorem Falling.mem_dropWhile {spine : List (Option Nat)} {count : Nat} (h : Falling spine count)
    {owner : Option Nat} (howner : owner ∈ spine) {x : Option Nat} :
    x ∈ spine.dropWhile (· != owner) ↔ x ∈ spine ∧ rank x ≤ rank owner := by
  have hfalls := h.falls
  -- only the order is needed, and the top level leaves the spine in the induction
  clear h
  induction spine with
  | nil => simp at howner
  | cons key rest ih =>
    rw [List.pairwise_cons] at hfalls
    by_cases hkey : key = owner
    · subst hkey
      simp only [List.dropWhile_cons, bne_self_eq_false, Bool.false_eq_true, if_false]
      constructor
      · intro hx
        refine ⟨hx, ?_⟩
        rcases List.mem_cons.mp hx with rfl | hx
        · exact Nat.le_refl _
        · exact Nat.le_of_lt (hfalls.1 x hx)
      · exact And.left
    · have howner : owner ∈ rest := by
        rcases List.mem_cons.mp howner with heq | hmem
        · exact absurd heq.symm hkey
        · exact hmem
      have hrest := ih howner hfalls.2
      rw [List.dropWhile_cons, if_pos (by simpa using hkey), List.mem_cons]
      refine Iff.trans hrest ?_
      have hlt := hfalls.1 owner howner
      constructor
      · rintro ⟨hx, hle⟩
        exact ⟨Or.inr hx, hle⟩
      · rintro ⟨rfl | hx, hle⟩
        · omega
        · exact ⟨hx, hle⟩

/-- What is on the spine behind an entry: the entry, and of what was there all that is no deeper
than its owner. -/
theorem Falling.mem_spineStep {spine : List (Option Nat)} {count : Nat} (h : Falling spine count)
    {e : Entry} (howner : e.owner ∈ spine) {x : Option Nat} :
    x ∈ spineStep spine e ↔ x = some e.id ∨ x ∈ spine ∧ rank x ≤ rank e.owner := by
  rw [spineStep, List.mem_cons, h.mem_dropWhile howner]

/-- An entry that is owned by the spine keeps the spine falling. -/
theorem Falling.spineStep {spine : List (Option Nat)} {count : Nat} (h : Falling spine count)
    {e : Entry} (howner : e.owner ∈ spine) (hid : e.id = count) :
    Falling (spineStep spine e) (count + 1) where
  falls := by
    refine List.pairwise_cons.mpr ⟨?_, h.falls.sublist (List.dropWhile_sublist _)⟩
    intro x hx
    have hle := h.bounded x (List.dropWhile_subset _ hx)
    rw [rank_some, hid]
    omega
  bounded := by
    intro x hx
    rcases (h.mem_spineStep howner).mp hx with rfl | ⟨hx, -⟩
    · simp [hid]
    · have := h.bounded x hx
      omega
  top := by
    refine (h.mem_spineStep howner).mpr (Or.inr ⟨h.top, ?_⟩)
    simp

theorem spine_of_cons {b : Builder} {e : Entry} {older : List Entry} (h : b.entries = e :: older) :
    b.spine = Builder.spineStep (older.reverse.foldl Builder.spineStep [none]) e := by
  rw [spine, h, List.reverse_cons, List.foldl_append]
  rfl

/-! ## Layout and builder side by side

`heads` are the first tokens of the lines that have ended, the newest first. -/

/-- An open logical line: all that is open in it lies between its first token `head` and the newest
token, and right above its first token the spine goes on with the first token of `line`, the line
in whose block it began. -/
structure OpenLine (lines : Nat) (spine : List (Option Nat)) (brackets heads : List Nat)
    (head line : Nat) : Prop where
  /-- The line in whose block it began has ended. -/
  ended : line ≤ lines
  /-- Its first token is on the spine. -/
  head_mem : some head ∈ spine
  /-- So is the one it is owned by. -/
  owner_mem : ownerOf heads line ∈ spine
  /-- There is nothing between the two. -/
  gap : ∀ x ∈ spine, rank x < head + 1 → rank x ≤ rank (ownerOf heads line)
  /-- The lines that have ended began before it. -/
  later : ∀ other ∈ heads, other < head
  /-- Its open brackets are on the spine, behind its first token. -/
  inside : ∀ bracket ∈ brackets, some bracket ∈ spine ∧ head ≤ bracket
  /-- The innermost bracket was opened last. -/
  falls : brackets.Pairwise (· > ·)

/-- A layout and a builder that have followed the same events, every token so far in turn. -/
structure Tracks (l : Layout) (b : Builder) (heads : List Nat) : Prop where
  /-- The builder's numbers are in order. -/
  sound : b.Sound
  /-- Every token so far was owned by the spine. -/
  falling : Falling b.spine b.entries.length
  /-- The layout has counted the lines. -/
  count : heads.length = l.lines
  /-- Later lines have later first tokens. -/
  ordered : heads.Pairwise (· > ·)
  /-- First tokens are tokens. -/
  fed : ∀ head ∈ heads, head < b.entries.length
  /-- The builder knows the first token of the line before. -/
  last : b.lastHead = heads.head?
  /-- Each block is owned by the first token of its line. -/
  owners : b.blocks = l.blocks.map fun k => ownerOf heads k.line
  /-- No block belongs to a line to come. -/
  ended : ∀ k ∈ l.blocks, k.line ≤ l.lines
  /-- A block inside another one belongs to no earlier line. -/
  nested : l.blocks.Pairwise fun inner outer => outer.line ≤ inner.line
  /-- Stray blocks are those whose owner is off the spine. -/
  stray : ∀ k ∈ l.blocks, ownerOf heads k.line ∈ b.spine ↔ k.stray = false
  /-- Between lines, the line before has the newest token. -/
  between : b.head = none → l.begun = none ∧ b.brackets = [] ∧ heads.head? ∈ b.spine
  /-- Within a line, the layout knows where it began. -/
  within : ∀ head, b.head = some head → ∃ line, l.begun = some line
    ∧ OpenLine l.lines b.spine b.brackets heads head line

theorem tracks_empty : Tracks {} {} [] where
  sound := sound_empty
  falling := ⟨by simp [spine], by simp [spine], by simp [spine]⟩
  count := rfl
  ordered := List.Pairwise.nil
  fed := by simp
  last := rfl
  owners := rfl
  ended := by simp
  nested := List.Pairwise.nil
  stray := by simp
  between := by simp [spine]
  within := by simp

section Steps

variable {l : Layout} {b : Builder} {heads : List Nat}

/-- The owner of a line that begins now is that of the innermost block. -/
theorem Tracks.blockOwner_eq (h : Tracks l b heads) :
    b.blockOwner = ownerOf heads l.innermost.line := by
  rw [blockOwner, h.owners, Layout.innermost]
  cases l.blocks with
  | nil => simp [ownerOf_zero]
  | cons k rest => simp

/-- The innermost block is stray if its owner is off the spine. -/
theorem Tracks.innermost_stray (h : Tracks l b heads) :
    ownerOf heads l.innermost.line ∈ b.spine ↔ l.innermost.stray = false := by
  rw [Layout.innermost]
  cases hblocks : l.blocks with
  | nil => simpa [ownerOf_zero] using h.falling.top
  | cons k rest => exact h.stray k (by simp [hblocks])

theorem Tracks.innermost_le (h : Tracks l b heads) : l.innermost.line ≤ l.lines := by
  rw [Layout.innermost]
  cases hblocks : l.blocks with
  | nil => simp
  | cons k rest => exact h.ended k (by simp [hblocks])

/-- No open block belongs to a later line than the innermost one. -/
theorem Tracks.le_innermost (h : Tracks l b heads) : ∀ k ∈ l.blocks, k.line ≤ l.innermost.line := by
  intro k hk
  rw [Layout.innermost]
  cases hblocks : l.blocks with
  | nil => simp [hblocks] at hk
  | cons top rest =>
    rw [hblocks] at hk
    rcases List.mem_cons.mp hk with rfl | hk
    · exact Nat.le_refl _
    · exact (List.pairwise_cons.mp (hblocks ▸ h.nested)).1 k hk

/-- Within a line, a token goes below the line's first token. -/
theorem Tracks.ownerOfNext_within (h : Tracks l b heads) {head : Nat} (hhead : b.head = some head) :
    b.ownerOfNext ∈ b.spine ∧ head + 1 ≤ rank b.ownerOfNext
      ∧ ∀ bracket ∈ b.brackets, rank (some bracket) ≤ rank b.ownerOfNext := by
  obtain ⟨line, -, hopen⟩ := h.within head hhead
  rw [ownerOfNext, hhead]
  cases hb : b.brackets with
  | nil => simpa using hopen.head_mem
  | cons top rest =>
    rw [hb] at hopen
    have htop := hopen.inside top List.mem_cons_self
    refine ⟨htop.1, Nat.succ_le_succ htop.2, ?_⟩
    intro bracket hbracket
    rcases List.mem_cons.mp hbracket with rfl | hbracket
    · exact Nat.le_refl _
    · have := (List.pairwise_cons.mp hopen.falls).1 bracket hbracket
      simp only [rank_some]
      omega

/-- **When a token is in turn.** The next token is owned by the spine unless it begins a line in a
stray block. -/
theorem Tracks.ownerOfNext_mem_iff (h : Tracks l b heads) (kind : TokenKind) (text : Text)
    (offset : Int) :
    b.ownerOfNext ∈ b.spine ↔ l.strays (.token kind text offset) = false := by
  cases hhead : b.head with
  | none =>
    obtain ⟨hbegun, hbrackets, -⟩ := h.between hhead
    rw [ownerOfNext, hbrackets, hhead]
    simp only [Layout.strays, hbegun, Option.isNone_none, Bool.true_and]
    rw [h.blockOwner_eq, h.innermost_stray]
  | some head =>
    obtain ⟨line, hbegun, -⟩ := h.within head hhead
    simp [Layout.strays, hbegun, (h.ownerOfNext_within hhead).1]

/-! ## Steps side by side -/

/-- Brackets that fall still do so behind a token. -/
theorem bracketsAfter_falls {kind : TokenKind} {text : Text} {id : Nat} {brackets : List Nat}
    (hfall : brackets.Pairwise (· > ·)) (hid : ∀ bracket ∈ brackets, bracket < id) :
    (bracketsAfter kind text id brackets).Pairwise (· > ·) := by
  rw [bracketsAfter]
  split
  · split
    · exact List.pairwise_cons.mpr ⟨hid, hfall⟩
    · split
      · exact hfall.sublist (List.tail_sublist _)
      · exact hfall
  · exact hfall

theorem Tracks.mem_spine_addToken (h : Tracks l b heads) (hturn : b.ownerOfNext ∈ b.spine)
    (kind : TokenKind) (text : Text) (offset : Int) {x : Option Nat} :
    x ∈ (b.addToken kind text offset).spine
      ↔ x = some b.entries.length ∨ x ∈ b.spine ∧ rank x ≤ rank b.ownerOfNext := by
  have hspine : (b.addToken kind text offset).spine
      = Builder.spineStep b.spine ⟨b.nextId, b.ownerOfNext, kind, text, offset, b.waiting⟩ :=
    spine_of_cons rfl
  rw [hspine, h.falling.mem_spineStep hturn, nextId_of_ids h.sound.ids]

theorem head_addToken (b : Builder) (kind : TokenKind) (text : Text) (offset : Int)
    (h : b.head = none → b.brackets = []) :
    (b.addToken kind text offset).head = (b.head <|> some b.nextId) := by
  simp only [addToken]
  cases hhead : b.head with
  | none => simp [h hhead]
  | some head => simp

/-- No open block is owned by a token behind the owner of the next token. -/
theorem Tracks.rank_block_le (h : Tracks l b heads) {k : Block} (hk : k ∈ l.blocks) :
    rank (ownerOf heads k.line) ≤ rank b.ownerOfNext := by
  cases hb : b.head with
  | none =>
    rw [ownerOfNext, (h.between hb).2.1, hb, h.blockOwner_eq]
    exact rank_ownerOf_mono h.ordered (h.le_innermost k hk) (h.count ▸ h.innermost_le)
  | some head =>
    -- the owners of blocks are first tokens of earlier lines
    obtain ⟨line, -, hopen⟩ := h.within head hb
    have hle := rank_ownerOf_le hopen.later k.line
    have := (h.ownerOfNext_within hb).2.1
    omega

/-- The owner of a line keeps its place on or off the spine, if it is not below the new owner. -/
theorem Tracks.ownerOf_mem_addToken (h : Tracks l b heads) (hturn : b.ownerOfNext ∈ b.spine)
    (kind : TokenKind) (text : Text) (offset : Int) {line : Nat}
    (hle : rank (ownerOf heads line) ≤ rank b.ownerOfNext) :
    ownerOf heads line ∈ (b.addToken kind text offset).spine ↔ ownerOf heads line ∈ b.spine := by
  have hbound := rank_ownerOf_le h.fed line
  rw [h.mem_spine_addToken hturn]
  constructor
  · rintro (heq | ⟨hold, -⟩)
    · rw [heq, rank_some] at hbound
      omega
    · exact hold
  · exact fun hold => Or.inr ⟨hold, hle⟩

/-- A token that begins a line does so in the innermost block, below the first token of the line
that the block belongs to. -/
theorem Tracks.openLine_begin (h : Tracks l b heads) (hturn : b.ownerOfNext ∈ b.spine)
    (hhead : b.head = none) (kind : TokenKind) (text : Text) (offset : Int) :
    OpenLine l.lines (b.addToken kind text offset).spine (b.addToken kind text offset).brackets
      heads b.nextId l.innermost.line := by
  have hnext := nextId_of_ids h.sound.ids
  have hmem := fun x => h.mem_spine_addToken hturn kind text offset (x := x)
  obtain ⟨-, hbrackets, -⟩ := h.between hhead
  -- with no bracket open and no line begun, the block is what the token hangs below
  have howner : b.ownerOfNext = ownerOf heads l.innermost.line := by
    rw [ownerOfNext, hbrackets, hhead, h.blockOwner_eq]
  constructor
  · exact h.innermost_le
  · exact (hmem _).mpr (Or.inl (congrArg some hnext))
  · refine (h.ownerOf_mem_addToken hturn kind text offset ?_).mpr (howner ▸ hturn)
    exact Nat.le_of_eq (congrArg rank howner.symm)
  · rintro x hx hlt
    rcases (hmem x).mp hx with rfl | ⟨-, hle⟩
    · rw [hnext, rank_some] at hlt
      omega
    · exact howner ▸ hle
  · exact hnext ▸ h.fed
  · rintro bracket hbracket
    -- no bracket was open, so the only one is the token itself
    rcases mem_bracketsAfter hbracket with rfl | hbracket
    · exact ⟨(hmem _).mpr (Or.inl (congrArg some hnext)), Nat.le_refl _⟩
    · simp [hbrackets] at hbracket
  · exact bracketsAfter_falls (by simp [hbrackets]) (by simp [hbrackets])

/-- A token that continues a line leaves it where it began. It may go below a bracket, but never
below another line. -/
theorem Tracks.openLine_continue (h : Tracks l b heads) (hturn : b.ownerOfNext ∈ b.spine)
    {head line : Nat} (hhead : b.head = some head)
    (hopen : OpenLine l.lines b.spine b.brackets heads head line) (kind : TokenKind) (text : Text)
    (offset : Int) :
    OpenLine l.lines (b.addToken kind text offset).spine (b.addToken kind text offset).brackets
      heads head line := by
  have hnext := nextId_of_ids h.sound.ids
  have hmem := fun x => h.mem_spine_addToken hturn kind text offset (x := x)
  have hfirst := h.sound.head head hhead
  obtain ⟨-, howner, hle⟩ := h.ownerOfNext_within hhead
  constructor
  · exact hopen.ended
  · exact (hmem _).mpr (Or.inr ⟨hopen.head_mem, howner⟩)
  -- the line was before its first token, and so is its owner
  · have hrank := rank_ownerOf_le hopen.later line
    exact (h.ownerOf_mem_addToken hturn kind text offset (by omega)).mpr hopen.owner_mem
  · rintro x hx hlt
    rcases (hmem x).mp hx with rfl | ⟨hx, -⟩
    · rw [rank_some] at hlt
      omega
    · exact hopen.gap x hx hlt
  · exact hopen.later
  · rintro bracket hbracket
    -- a bracket is the token itself, or was open and is still not closed
    rcases mem_bracketsAfter hbracket with rfl | hbracket
    · exact ⟨(hmem _).mpr (Or.inl (congrArg some hnext)), by omega⟩
    · obtain ⟨hold, hbehind⟩ := hopen.inside bracket hbracket
      exact ⟨(hmem _).mpr (Or.inr ⟨hold, hle bracket hbracket⟩), hbehind⟩
  · exact bracketsAfter_falls hopen.falls fun bracket hbracket =>
      hnext ▸ h.sound.brackets bracket hbracket

theorem Tracks.token (h : Tracks l b heads) {kind : TokenKind} {text : Text} {offset : Int}
    (hstray : l.strays (.token kind text offset) = false) :
    Tracks (l.step (.token kind text offset)) (b.addToken kind text offset) heads := by
  have hturn := (h.ownerOfNext_mem_iff kind text offset).mpr hstray
  have hhead := b.head_addToken kind text offset fun hnone => (h.between hnone).2.1
  constructor
  · exact h.sound.addToken kind text offset
  -- the token hangs below its owner, which is on the spine because it is its turn
  · have hspine : (b.addToken kind text offset).spine
        = Builder.spineStep b.spine ⟨b.nextId, b.ownerOfNext, kind, text, offset, b.waiting⟩ :=
      spine_of_cons rfl
    rw [hspine]
    exact h.falling.spineStep hturn (nextId_of_ids h.sound.ids)
  · exact h.count
  · exact h.ordered
  · exact fun head hfed => Nat.lt_succ_of_lt (h.fed head hfed)
  · exact h.last
  · exact h.owners
  · exact h.ended
  · exact h.nested
  · intro k hk
    -- an owner of a block stays on the spine or off it
    rw [h.ownerOf_mem_addToken hturn kind text offset (h.rank_block_le hk)]
    exact h.stray k hk
  · intro hnone
    rw [hhead] at hnone
    cases hb : b.head <;> simp [hb] at hnone
  · intro head hsome
    rw [hhead] at hsome
    -- the token begins the line, or goes on with the one that is open
    cases hb : b.head with
    | none =>
      rw [hb] at hsome
      obtain rfl : b.nextId = head := Option.some.inj hsome
      obtain ⟨hbegun, -⟩ := h.between hb
      exact ⟨l.innermost.line, by simp [Layout.step, hbegun],
        h.openLine_begin hturn hb kind text offset⟩
    | some first =>
      rw [hb] at hsome
      obtain rfl : first = head := Option.some.inj hsome
      obtain ⟨line, hbegun, hopen⟩ := h.within _ hb
      exact ⟨line, by simp [Layout.step, hbegun],
        h.openLine_continue hturn hb hopen kind text offset⟩

theorem Tracks.endLine_between (h : Tracks l b heads) (hhead : b.head = none) :
    Tracks (l.step .endLine) (b.step .endLine) heads := by
  obtain ⟨hbegun, -, hlast⟩ := h.between hhead
  have hl : l.step .endLine = { l with begun := none } := by simp [Layout.step, hbegun]
  rw [hl]
  refine { h with sound := h.sound.step .endLine, last := ?_, between := ?_, within := ?_ }
  · simp [Builder.step, hhead, h.last]
  · exact fun _ => ⟨rfl, rfl, hlast⟩
  · simp [Builder.step]

/-- A line end within a line closes it, and its first token is the newest one that blocks can hang
on. -/
theorem Tracks.endLine_within (h : Tracks l b heads) {head : Nat} (hhead : b.head = some head) :
    Tracks (l.step .endLine) (b.step .endLine) (head :: heads) := by
  obtain ⟨line, hbegun, hopen⟩ := h.within head hhead
  have hl : l.step .endLine = { l with lines := l.lines + 1, begun := none } := by
    simp [Layout.step, hbegun]
  -- open blocks belong to lines that have ended before this one
  have hsame : ∀ k ∈ l.blocks, ownerOf (head :: heads) k.line = ownerOf heads k.line :=
    fun k hk => ownerOf_cons head (h.count ▸ h.ended k hk)
  rw [hl]
  constructor
  · exact h.sound.step .endLine
  · exact h.falling
  · rw [List.length_cons, h.count]
  · exact List.pairwise_cons.mpr ⟨hopen.later, h.ordered⟩
  · intro other hother
    rcases List.mem_cons.mp hother with rfl | hother
    · exact h.sound.head _ hhead
    · exact h.fed other hother
  · simp [Builder.step, hhead]
  · exact h.owners.trans (List.map_congr_left fun k hk => (hsame k hk).symm)
  · exact fun k hk => Nat.le_succ_of_le (h.ended k hk)
  · exact h.nested
  · intro k hk
    rw [hsame k hk]
    exact h.stray k hk
  · exact fun _ => ⟨rfl, rfl, hopen.head_mem⟩
  · simp [Builder.step]

/-- The owner of a block that begins now is the first token of the line before. -/
theorem Tracks.startBlock_owner (h : Tracks l b heads) :
    (b.lastHead <|> b.blockOwner) = ownerOf heads l.lines := by
  rw [h.last, ← h.count, ownerOf_length, h.blockOwner_eq]
  cases heads with
  | nil => simp [ownerOf]
  | cons head rest => rfl

/-- A block that begins now is stray if it begins within a line that lies in no block of the line
before. -/
theorem Tracks.startBlock_stray (h : Tracks l b heads) :
    ownerOf heads l.lines ∈ b.spine ↔ l.begun.any (· != l.lines) = false := by
  cases hhead : b.head with
  | none =>
    obtain ⟨hbegun, -, hlast⟩ := h.between hhead
    rw [← h.count, ownerOf_length, hbegun]
    simpa using hlast
  | some head =>
    obtain ⟨line, hbegun, hopen⟩ := h.within head hhead
    rw [hbegun]
    simp only [Option.any_some, bne_eq_false_iff_eq]
    constructor
    · -- on the spine, the line before would lie in the gap below the open line
      intro hmem
      have hle := hopen.gap _ hmem (Nat.lt_succ_of_le (rank_ownerOf_le hopen.later _))
      rcases Nat.lt_or_ge line l.lines with hlt | hge
      · have := rank_ownerOf_lt h.ordered hlt (Nat.le_of_eq h.count.symm)
        omega
      · exact Nat.le_antisymm hopen.ended hge
    · rintro rfl
      exact hopen.owner_mem

theorem Tracks.startBlock (h : Tracks l b heads) :
    Tracks (l.step .startBlock) (b.step .startBlock) heads := by
  refine
    { h with
      sound := h.sound.step .startBlock
      owners := ?_
      ended := ?_
      nested := ?_
      stray := ?_ }
  · simp only [Builder.step, Layout.step, List.map_cons, h.startBlock_owner, h.owners]
  · intro k hk
    rcases List.mem_cons.mp hk with rfl | hk
    · exact Nat.le_refl _
    · exact h.ended k hk
  · exact List.pairwise_cons.mpr ⟨h.ended, h.nested⟩
  · intro k hk
    rcases List.mem_cons.mp hk with rfl | hk
    · exact h.startBlock_stray
    · exact h.stray k hk

theorem Tracks.finishBlock (h : Tracks l b heads) :
    Tracks (l.step .finishBlock) (b.step .finishBlock) heads := by
  refine
    { h with
      sound := h.sound.step .finishBlock
      owners := ?_
      ended := ?_
      nested := ?_
      stray := ?_ }
  · simp only [Builder.step, Layout.step, h.owners, List.map_tail]
  · exact fun k hk => h.ended k (List.mem_of_mem_tail hk)
  · exact h.nested.sublist (List.tail_sublist _)
  · exact fun k hk => h.stray k (List.mem_of_mem_tail hk)

/-- Trivia changes no line, block or token. -/
theorem addTrivia_eq (b : Builder) (piece : Trivia) : ∃ trailing waiting codeOnLine,
    b.addTrivia piece = { b with trailing, waiting, codeOnLine } := by
  rw [addTrivia]
  split
  · exact ⟨_, _, _, rfl⟩
  split
  · split <;> exact ⟨_, _, _, rfl⟩
  · exact ⟨_, _, _, rfl⟩

theorem Tracks.trivia (h : Tracks l b heads) (piece : Trivia) :
    Tracks l (b.addTrivia piece) heads := by
  have hsound := h.sound.addTrivia piece
  obtain ⟨trailing, waiting, codeOnLine, heq⟩ := b.addTrivia_eq piece
  rw [heq] at hsound ⊢
  exact { h with sound := hsound }

/-- Layout and builder stay side by side while every token is in turn. -/
theorem Tracks.step (h : Tracks l b heads) {e : Event} (hstray : l.strays e = false) :
    ∃ heads, Tracks (l.step e) (b.step e) heads := by
  cases e with
  | token kind text offset => exact ⟨heads, h.token hstray⟩
  | trivia kind text offset => exact ⟨heads, h.trivia ⟨kind, text, offset⟩⟩
  | endLine =>
    cases hhead : b.head with
    | none => exact ⟨heads, h.endLine_between hhead⟩
    | some head => exact ⟨head :: heads, h.endLine_within hhead⟩
  | startBlock => exact ⟨heads, h.startBlock⟩
  | finishBlock => exact ⟨heads, h.finishBlock⟩
  | finish => exact ⟨heads, { h with sound := h.sound.step .finish }⟩

end Steps

/-! ## Runs -/

/-- No event takes an entry back. -/
theorem entries_step (b : Builder) (e : Event) :
    ∃ more, (b.step e).entries.reverse = b.entries.reverse ++ more := by
  cases e with
  | token kind text offset => exact ⟨_, List.reverse_cons⟩
  | trivia kind text offset =>
    obtain ⟨trailing, waiting, codeOnLine, heq⟩ := b.addTrivia_eq ⟨kind, text, offset⟩
    exact ⟨[], by rw [step, heq, List.append_nil]⟩
  | endLine | startBlock | finishBlock | finish => exact ⟨[], (List.append_nil _).symm⟩

theorem entries_foldl (b : Builder) (events : List Event) :
    ∃ more, (events.foldl step b).entries.reverse = b.entries.reverse ++ more := by
  induction events generalizing b with
  | nil => exact ⟨[], (List.append_nil _).symm⟩
  | cons e rest ih =>
    obtain ⟨first, hfirst⟩ := b.entries_step e
    obtain ⟨more, hmore⟩ := ih (b.step e)
    exact ⟨first ++ more, by rw [List.foldl_cons, hmore, hfirst, List.append_assoc]⟩

theorem InTurn.of_append {spine : List (Option Nat)} {fed more : List Entry}
    (h : InTurn spine (fed ++ more)) : InTurn spine fed := by
  induction fed generalizing spine with
  | nil => trivial
  | cons e rest ih => exact ⟨h.1, ih h.2⟩

/-- Where all was in turn, a token that is not makes the entries be out of turn. So to be in turn is
to have had no stray token, in both directions. -/
theorem Tracks.inTurn_step_iff {l : Layout} {b : Builder} {heads : List Nat}
    (h : Tracks l b heads) (hturn : InTurn [none] b.entries.reverse) (e : Event) :
    InTurn [none] (b.step e).entries.reverse ↔ l.strays e = false := by
  cases e with
  | token kind text offset =>
    rw [← h.ownerOfNext_mem_iff kind text offset]
    have hentries : (b.step (.token kind text offset)).entries.reverse
        = b.entries.reverse ++ [⟨b.nextId, b.ownerOfNext, kind, text, offset, b.waiting⟩] :=
      List.reverse_cons
    rw [hentries, inTurn_append_singleton]
    exact and_iff_right hturn
  | trivia kind text offset =>
    obtain ⟨trailing, waiting, codeOnLine, heq⟩ := b.addTrivia_eq ⟨kind, text, offset⟩
    rw [Builder.step, heq]
    exact iff_of_true hturn rfl
  | endLine | startBlock | finishBlock | finish => exact iff_of_true hturn rfl

/-- A run from where all was in turn. -/
theorem Tracks.inTurn_foldl_iff {l : Layout} {b : Builder} {heads : List Nat}
    (h : Tracks l b heads) (hturn : InTurn [none] b.entries.reverse) (events : List Event) :
    InTurn [none] (events.foldl Builder.step b).entries.reverse ↔ l.strayed events = false := by
  induction events generalizing l b heads with
  | nil => exact iff_of_true hturn rfl
  | cons e rest ih =>
    have hstep := h.inTurn_step_iff hturn e
    rw [List.foldl_cons, Layout.strayed, Bool.or_eq_false_iff]
    by_cases hstray : l.strays e = false
    · obtain ⟨heads, hnext⟩ := h.step hstray
      rw [ih hnext (hstep.mpr hstray)]
      exact (and_iff_right hstray).symm
    · -- one token out of turn stays so, whatever comes behind it
      refine iff_of_false (fun hall => hstray (hstep.mp ?_)) fun hnone => hstray hnone.1
      obtain ⟨more, hmore⟩ := (b.step e).entries_foldl rest
      exact (hmore ▸ hall).of_append

/-- **Stray blocks.** Every token is in turn exactly when no logical line begins directly in a stray
block. -/
theorem inTurn_run_iff (events : List Event) :
    InTurn [none] (run events).entries.reverse ↔ Layout.strayed {} events = false :=
  tracks_empty.inTurn_foldl_iff trivial events

end Builder

end Orthography
