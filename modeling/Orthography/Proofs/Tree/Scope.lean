/-
The scope of a logical line: the line and the blocks it introduces.

A block is introduced by the last line that ended before the block began, and a line lies in the
innermost block that is open where the line begins. So the scope of a line holds the line itself and
every line in a block that a line of the scope introduced. `Scope` follows the events and notes this
of the open line, the last one and the open blocks; it knows nothing of owners or brackets.

Main statements: the scope of a line is closed downwards and upwards in the builder's notes
(`Scope.Fits.below`, `Scope.Fits.above`), that is, it is the first token of the line with all that
is below it; so that token is in the lineage of everything in the scope (`Scope.Fits.exists_first`).
-/
import Orthography.Proofs.Tree.Places

set_option autoImplicit false

namespace Orthography

/-! ## Scopes -/

/-- What the events tell about the scope of one line. -/
structure Scope where
  /-- How many tokens there were. -/
  fed : Nat := 0
  /-- For an open logical line, is it in the scope? -/
  line : Option Bool := none
  /-- Is the last line that has ended? -/
  last : Bool := false
  /-- For each open block, is the line that introduced it? The innermost comes first. -/
  blocks : List Bool := []
  /-- The numbers of the tokens in the scope, the newest first. -/
  tokens : List Nat := []
  deriving Repr

namespace Scope

/-- Is a token that comes now in the scope of the line that begins with the token `first`? -/
def takes (first : Nat) (s : Scope) : Bool :=
  s.line.getD (s.fed = first || s.blocks.headD false)

/-- The scope of the line that begins with the token `first`, behind an event. -/
def step (first : Nat) (s : Scope) : Event → Scope
  | .token .. =>
    { s with
      fed := s.fed + 1
      line := some (s.takes first)
      tokens := if s.takes first then s.fed :: s.tokens else s.tokens }
  | .endLine => { s with line := none, last := s.line.getD s.last }
  | .startBlock => { s with blocks := s.last :: s.blocks }
  | .finishBlock => { s with blocks := s.blocks.tail }
  | .trivia .. | .finish => s

/-- Is the token of a number in the scope? -/
def covers (s : Scope) (n : Nat) : Bool := s.tokens.contains n

end Scope

/-- The tokens in the scope of the line that begins with the token `first`. -/
def Event.scope (first : Nat) (events : List Event) : List Nat :=
  (events.foldl (Scope.step first) {}).tokens

/-! ## Where code stands -/

/-- What the events tell about the lines that one stands on. -/
structure Caret where
  /-- How many tokens there were. -/
  fed : Nat := 0
  /-- The first token of the open logical line. -/
  first : Option Nat := none
  /-- Was there a token since the last line end? -/
  code : Bool := false
  deriving Repr

def Caret.step (c : Caret) : Event → Caret
  | .token .. => { fed := c.fed + 1, first := c.first <|> some c.fed, code := true }
  | .trivia kind text _ => { c with code := c.code && (text.isEmpty || kind != .newline) }
  | .endLine => { c with first := none }
  | .startBlock | .finishBlock | .finish => c

/-- The first token of the open logical line, if there is code on the current physical line. -/
def Event.codeLine? (events : List Event) : Option Nat :=
  let c := events.foldl Caret.step {}
  if c.code then c.first else none

namespace Builder

/-! ## What holds between events -/

/-- What a builder that began empty keeps to. -/
structure Regular (b : Builder) : Prop where
  /-- Brackets are open only within a line. -/
  brackets : b.head = none → b.brackets = []
  /-- Before the first line end there is nobody to own a block. -/
  blocks : b.lastHead = none → ∀ owner ∈ b.blocks, owner = none
  /-- Behind code of an open line no comment waits. -/
  waiting : b.head.isSome = true → b.codeOnLine = true → commentsOf b.waiting = []

theorem regular_empty : Regular {} where
  brackets _ := rfl
  blocks _ := by simp
  waiting _ _ := rfl

/-- A line that begins before the first line end is nobody's. -/
theorem Regular.blockOwner_eq_none {b : Builder} (h : b.Regular) (hlast : b.lastHead = none) :
    b.blockOwner = none := by
  rw [blockOwner]
  cases hopen : b.blocks with
  | nil => rfl
  | cons top rest => exact h.blocks hlast top (by simp [hopen])

theorem Regular.addTrivia {b : Builder} (h : b.Regular) (piece : Trivia) :
    (b.addTrivia piece).Regular := by
  rw [Builder.addTrivia]
  split
  · exact h
  split
  · split
    · exact { h with waiting := fun _ _ => rfl }
    · next hhead => exact { h with waiting := fun hopen => by simp [hhead] at hopen }
  · next hmoved =>
    refine { h with waiting := fun hopen hcode => ?_ }
    -- behind code a comment would not wait
    simp only [Bool.and_eq_true] at hcode
    have hkind : piece.kind ≠ .comment := by simpa [hcode.1] using hmoved
    rw [commentsOf_append, h.waiting hopen hcode.1]
    simp [commentsOf, hkind]

theorem Regular.step {b : Builder} (h : b.Regular) (e : Event) : (b.step e).Regular := by
  cases e with
  | token kind text offset =>
    refine ⟨fun hnone => ?_, h.blocks, fun _ _ => rfl⟩
    have hhead := b.head_addToken kind text offset h.brackets
    rw [Builder.step, hhead] at hnone
    cases hb : b.head <;> simp [hb] at hnone
  | trivia kind text offset => exact h.addTrivia ⟨kind, text, offset⟩
  | endLine =>
    refine ⟨fun _ => rfl, fun hlast => h.blocks ?_, fun hopen => by simp [Builder.step] at hopen⟩
    -- the line that ends is the last one, or there was none, and then no block has an owner
    cases hb : b.head <;> simp [Builder.step, hb] at hlast
    exact hlast
  | startBlock =>
    refine { h with blocks := fun hlast owner howner => ?_ }
    have hlast : b.lastHead = none := hlast
    rcases List.mem_cons.mp howner with rfl | howner
    · rw [hlast, h.blockOwner_eq_none hlast]
      rfl
    · exact h.blocks hlast owner howner
  | finishBlock =>
    refine { h with blocks := fun hlast owner howner => ?_ }
    exact h.blocks hlast owner (List.mem_of_mem_tail howner)
  | finish => exact { h with waiting := fun _ _ => rfl }

end Builder

/-! ## Caret and builder side by side -/

/-- A caret that has followed the same events as a builder. -/
structure Caret.Fits (c : Caret) (b : Builder) : Prop where
  sound : b.Sound
  regular : b.Regular
  fed : c.fed = b.entries.length
  first : c.first = b.head
  code : c.code = b.codeOnLine

theorem Caret.Fits.step {c : Caret} {b : Builder} (h : c.Fits b) (e : Event) :
    (c.step e).Fits (b.step e) := by
  refine ⟨h.sound.step e, h.regular.step e, ?_, ?_, ?_⟩
  · cases e with
    | token => exact congrArg (· + 1) h.fed
    | trivia kind text offset =>
      obtain ⟨trailing, waiting, codeOnLine, heq⟩ := b.addTrivia_eq ⟨kind, text, offset⟩
      rw [Builder.step, heq]
      exact h.fed
    | endLine | startBlock | finishBlock | finish => exact h.fed
  · cases e with
    | token kind text offset =>
      rw [Builder.step, b.head_addToken kind text offset h.regular.brackets,
        Builder.nextId_of_ids h.sound.ids, ← h.first, ← h.fed]
      rfl
    | trivia kind text offset =>
      obtain ⟨trailing, waiting, codeOnLine, heq⟩ := b.addTrivia_eq ⟨kind, text, offset⟩
      rw [Builder.step, heq]
      exact h.first
    -- a line that ends has no first token, for the caret as for the builder
    | endLine => rfl
    | startBlock | finishBlock | finish => exact h.first
  · cases e with
    | token => rfl
    | trivia kind text offset =>
      -- a line end that is not empty takes code off for both
      rw [Builder.step, Builder.addTrivia, Caret.step, h.code]
      cases text.isEmpty <;> cases hkind : kind <;> cases hcode : b.codeOnLine <;>
        cases hhead : b.head <;> simp [hcode]
    | endLine | startBlock | finishBlock | finish => exact h.code

theorem Caret.fits_run (events : List Event) :
    (events.foldl Caret.step {}).Fits (Builder.run events) := by
  have hfoldl : ∀ (events : List Event) {c : Caret} {b : Builder}, c.Fits b →
      (events.foldl Caret.step c).Fits (events.foldl Builder.step b) := by
    intro events
    induction events with
    | nil => exact fun h => h
    | cons e rest ih => exact fun h => ih (h.step e)
  exact hfoldl events
    ⟨Builder.sound_empty, Builder.regular_empty, rfl, rfl, rfl⟩

/-- Where code stands, the builder takes a comment for one behind the open line's code. -/
theorem Event.codeLine?_eq_some {events : List Event} {first : Nat}
    (h : codeLine? events = some first) :
    (Builder.run events).head = some first ∧ (Builder.run events).codeOnLine = true
      ∧ commentsOf (Builder.run events).waiting = [] := by
  have hfits := Caret.fits_run events
  rw [codeLine?] at h
  split at h
  · next hcode =>
    have hhead := hfits.first.symm.trans h
    have hcode := hfits.code.symm.trans hcode
    exact ⟨hhead, hcode, hfits.regular.waiting (by simp [hhead]) hcode⟩
  · simp at h

/-! ## Scope and builder side by side -/

namespace Scope

open Builder (bracketsAfter)

variable {first : Nat} {s : Scope} {b : Builder}

/-- A scope that has followed the same events as a builder. -/
structure Fits (first : Nat) (s : Scope) (b : Builder) : Prop where
  sound : b.Sound
  regular : b.Regular
  fed : s.fed = b.entries.length
  /-- The scope begins with the first token of its line, and with no token to come. -/
  bound : ∀ n, s.covers n = true → first ≤ n ∧ n < b.entries.length
  line : s.line = b.head.map s.covers
  last : s.last = b.lastHead.any s.covers
  blocks : s.blocks = b.blocks.map (·.any s.covers)
  /-- The open brackets are those of the open line. -/
  brackets : ∀ head, b.head = some head → ∀ bracket ∈ b.brackets, s.covers bracket = s.covers head
  /-- What a token of the scope owns is in the scope. -/
  below : ∀ e ∈ b.entries, e.owner.any s.covers = true → s.covers e.id = true
  /-- All of the scope but its first token is owned by a token of it. -/
  above : ∀ e ∈ b.entries, s.covers e.id = true → e.id = first ∨ e.owner.any s.covers = true
  /-- If the line is open, its first token is in the scope. -/
  begun : b.head = some first → s.covers first = true

theorem fits_empty (first : Nat) : Fits first {} {} where
  sound := Builder.sound_empty
  regular := Builder.regular_empty
  fed := rfl
  bound := by simp [covers]
  line := rfl
  last := rfl
  blocks := rfl
  brackets := by simp
  below := by simp
  above := by simp
  begun := by simp

/-- A token is in the scope if its owner is, or if the line of the scope begins with it. The scope
itself knows no owners, only whether it is being fed. -/
theorem Fits.takes_eq (h : Fits first s b) :
    s.takes first
      = (b.ownerOfNext.any s.covers || (b.head.isNone && decide (b.entries.length = first))) := by
  rw [takes, h.line, h.fed, h.blocks, Builder.ownerOfNext]
  cases hhead : b.head with
  | none =>
    rw [h.regular.brackets hhead, Builder.blockOwner]
    cases b.blocks <;> simp [Bool.or_comm]
  | some head =>
    cases hbrackets : b.brackets with
    | nil => simp
    | cons bracket rest =>
      have hsame := h.brackets head hhead bracket (by simp [hbrackets])
      simp [hsame]

/-! ### A token

The tokens before keep their answer, and the new one gets that of `takes`. -/

section Token

variable (h : Fits first s b) (kind : TokenKind) (text : Text) (offset : Int)
include h

theorem Fits.covers_of_ne {n : Nat} (hn : n ≠ b.entries.length) :
    (s.step first (.token kind text offset)).covers n = s.covers n := by
  rw [covers, Scope.step, h.fed]
  cases s.takes first <;> simp [hn, covers]

theorem Fits.any_covers {owner : Option Nat}
    (howner : ∀ n, owner = some n → n < b.entries.length) :
    owner.any (s.step first (.token kind text offset)).covers = owner.any s.covers := by
  cases owner with
  | none => rfl
  | some n => exact h.covers_of_ne kind text offset (Nat.ne_of_lt (howner n rfl))

theorem Fits.covers_new :
    (s.step first (.token kind text offset)).covers b.entries.length = s.takes first := by
  have hnew : s.tokens.contains b.entries.length = false := by
    rw [Bool.eq_false_iff]
    exact fun hcovers => Nat.lt_irrefl _ (h.bound _ hcovers).2
  rw [covers, Scope.step, h.fed]
  cases s.takes first <;> simp_all

/-- The first token of the line behind a token: the old one, or the token itself. -/
theorem Fits.head_addToken {head : Nat} (hhead : (b.addToken kind text offset).head = some head) :
    b.head = some head ∨ (b.head = none ∧ head = b.entries.length) := by
  rw [b.head_addToken kind text offset h.regular.brackets,
    Builder.nextId_of_ids h.sound.ids] at hhead
  cases hb : b.head with
  | none =>
    rw [hb] at hhead
    exact Or.inr ⟨rfl, (Option.some.inj hhead).symm⟩
  | some old =>
    rw [hb] at hhead
    exact Or.inl hhead

/-- A token of an open line is in the scope if the line is. -/
theorem Fits.takes_of_head {head : Nat} (hhead : b.head = some head) :
    s.takes first = s.covers head := by
  rw [takes, h.line, hhead]
  rfl

theorem Fits.bound_token {n : Nat}
    (hn : (s.step first (.token kind text offset)).covers n = true) :
    first ≤ n ∧ n < b.entries.length + 1 := by
  by_cases hnew : n = b.entries.length
  · subst hnew
    refine ⟨?_, Nat.lt_succ_self _⟩
    -- its owner is in the scope already, or it is the first one itself
    rw [h.covers_new, h.takes_eq, Bool.or_eq_true] at hn
    rcases hn with hn | hn
    · obtain ⟨owner, hsome, hin⟩ := (Option.any_eq_true _ _).mp hn
      have hlt := h.sound.ownerOfNext_lt hsome
      have hle := (h.bound owner hin).1
      omega
    · simp only [Bool.and_eq_true, decide_eq_true_eq] at hn
      exact Nat.le_of_eq hn.2.symm
  · rw [h.covers_of_ne kind text offset hnew] at hn
    have hbound := h.bound n hn
    omega

theorem Fits.brackets_token {head bracket : Nat}
    (hhead : (b.addToken kind text offset).head = some head)
    (hbracket : bracket ∈ (b.addToken kind text offset).brackets) :
    (s.step first (.token kind text offset)).covers bracket
      = (s.step first (.token kind text offset)).covers head := by
  have hbracket := Builder.mem_bracketsAfter hbracket
  rw [Builder.nextId_of_ids h.sound.ids] at hbracket
  rcases h.head_addToken kind text offset hhead with hold | ⟨hnone, rfl⟩
  · rw [h.covers_of_ne kind text offset (Nat.ne_of_lt (h.sound.head head hold))]
    rcases hbracket with rfl | hbracket
    · rw [h.covers_new, h.takes_of_head hold]
    · rw [h.covers_of_ne kind text offset (Nat.ne_of_lt (h.sound.brackets bracket hbracket))]
      exact h.brackets head hold bracket hbracket
  · -- the token begins the line, so no other bracket is open
    rw [h.regular.brackets hnone] at hbracket
    rcases hbracket with rfl | hbracket
    · rfl
    · cases hbracket

/-- What is said of entries and their owners holds behind the token as it did before. -/
theorem Fits.covers_entry {e : Entry} (he : e ∈ b.entries) :
    (s.step first (.token kind text offset)).covers e.id = s.covers e.id
      ∧ e.owner.any (s.step first (.token kind text offset)).covers = e.owner.any s.covers := by
  have hlt := h.sound.id_lt he
  exact ⟨h.covers_of_ne kind text offset (Nat.ne_of_lt hlt),
    h.any_covers kind text offset fun n hsome => (h.sound.owners e he n hsome).trans hlt⟩

theorem Fits.token :
    Fits first (s.step first (.token kind text offset)) (b.addToken kind text offset) := by
  have hnext := Builder.nextId_of_ids h.sound.ids
  have hnew := h.covers_new kind text offset
  have howner := h.any_covers kind text offset fun _ => h.sound.ownerOfNext_lt
  have htakes := h.takes_eq
  constructor
  · exact h.sound.addToken kind text offset
  · exact h.regular.step (.token kind text offset)
  · exact congrArg (· + 1) h.fed
  · exact fun n hn => h.bound_token kind text offset hn
  -- the head: a first token is its own, a later one leaves the head as it was
  · rw [b.head_addToken kind text offset h.regular.brackets, hnext]
    cases hb : b.head with
    | none => exact congrArg some hnew.symm
    | some head =>
      have hold := h.covers_of_ne kind text offset (Nat.ne_of_lt (h.sound.head head hb))
      exact congrArg some ((h.takes_of_head hb).trans hold.symm)
  · exact h.last.trans (h.any_covers kind text offset h.sound.lastHead).symm
  -- owners of blocks and brackets are older than the token, so they keep what they cover
  · refine h.blocks.trans (List.map_congr_left fun owner hmem => ?_)
    refine (h.any_covers kind text offset ?_).symm
    rintro n rfl
    exact h.sound.blocks n hmem
  · exact fun head hhead bracket hbracket => h.brackets_token kind text offset hhead hbracket
  -- what is owned within the scope is within it
  · intro e he hin
    rcases List.mem_cons.mp he with rfl | he
    · rw [howner] at hin
      rw [hnext, hnew, htakes, hin, Bool.true_or]
    · obtain ⟨hid, hupper⟩ := h.covers_entry kind text offset he
      rw [hid]
      exact h.below e he (hupper ▸ hin)
  -- what is within the scope is its first token, or is owned within it
  · intro e he hin
    rcases List.mem_cons.mp he with rfl | he
    · rw [hnext, hnew, htakes, Bool.or_eq_true] at hin
      rw [howner, hnext]
      rcases hin with hin | hin
      · exact Or.inr hin
      · simp only [Bool.and_eq_true, decide_eq_true_eq] at hin
        exact Or.inl hin.2
    · obtain ⟨hid, hupper⟩ := h.covers_entry kind text offset he
      rw [hupper]
      exact h.above e he (hid ▸ hin)
  -- a line begun by the first token of the scope
  · intro hhead
    rcases h.head_addToken kind text offset hhead with hold | ⟨hnone, rfl⟩
    · rw [h.covers_of_ne kind text offset (Nat.ne_of_lt (h.sound.head first hold))]
      exact h.begun hold
    · rw [hnew, htakes, hnone]
      simp

end Token

/-- The scope stays that of its line, whatever comes. For a token that is `Fits.token`; the other
events open and close what the scope goes by, or do nothing to it. -/
theorem Fits.step (h : Fits first s b) (e : Event) : Fits first (s.step first e) (b.step e) := by
  have hsound := h.sound.step e
  have hregular := h.regular.step e
  cases e with
  | token kind text offset => exact h.token kind text offset
  | trivia kind text offset =>
    obtain ⟨trailing, waiting, codeOnLine, heq⟩ := b.addTrivia_eq ⟨kind, text, offset⟩
    rw [Builder.step, heq] at hsound hregular ⊢
    exact { h with sound := hsound, regular := hregular }
  | endLine =>
    refine
      { h with
        sound := hsound
        regular := hregular
        line := rfl
        last := ?_
        brackets := by simp [Builder.step]
        begun := by simp [Builder.step] }
    change s.line.getD s.last = (b.head <|> b.lastHead).any s.covers
    rw [h.line, h.last]
    cases b.head <;> rfl
  | startBlock =>
    refine { h with sound := hsound, regular := hregular, blocks := ?_ }
    change s.last :: s.blocks = ((b.lastHead <|> b.blockOwner) :: b.blocks).map (·.any s.covers)
    rw [h.last, h.blocks, List.map_cons]
    cases hlast : b.lastHead with
    | some head => rfl
    | none =>
      -- before the first line end nothing is in the scope, and the block is nobody's
      rw [h.regular.blockOwner_eq_none hlast]
      rfl
  | finishBlock =>
    refine { h with sound := hsound, regular := hregular, blocks := ?_ }
    change s.blocks.tail = b.blocks.tail.map (·.any s.covers)
    rw [h.blocks, List.map_tail]
  | finish => exact { h with sound := hsound, regular := hregular }

theorem Fits.foldl (h : Fits first s b) (events : List Event) :
    Fits first (events.foldl (Scope.step first) s) (events.foldl Builder.step b) := by
  induction events generalizing s b with
  | nil => exact h
  | cons e rest ih => exact ih (h.step e)

theorem fits_run (first : Nat) (events : List Event) :
    Fits first (events.foldl (Scope.step first) {}) (Builder.run events) :=
  (fits_empty first).foldl events

/-- A token once in the scope stays there. -/
theorem covers_foldl {n : Nat} (h : s.covers n = true) (events : List Event) :
    (events.foldl (step first) s).covers n = true := by
  induction events generalizing s with
  | nil => exact h
  | cons e rest ih =>
    refine ih ?_
    cases e with
    | token =>
      rw [covers, step]
      rw [covers] at h
      cases s.takes first <;> simp_all
    | trivia | endLine | startBlock | finishBlock | finish => exact h

/-! ## The scope as a lineage -/

/-- The first token of the line is in the lineage of all that the scope owns. -/
theorem Fits.exists_first (h : Fits first s b) {owner : Nat} (howner : s.covers owner = true) :
    ∃ e ∈ b.entries, e.id = first ∧ (first, b.bare e) ∈ b.lineage b.entries (some owner) := by
  -- on the number of the owner, as each is owned by an earlier one
  induction owner using Nat.strongRecOn with
  | _ owner ih =>
    obtain ⟨e, he, rfl⟩ := h.sound.exists_entry (h.bound owner howner).2
    rw [h.sound.lineage_eq e he]
    by_cases hfirst : e.id = first
    · exact ⟨e, he, hfirst, by simp [hfirst]⟩
    · rcases h.above e he howner with heq | hin
      · exact absurd heq hfirst
      · obtain ⟨upper, hupper, hcovers⟩ := (Option.any_eq_true _ _).mp hin
        obtain ⟨d, hd, hid, hmem⟩ := ih upper (h.sound.owners e he upper hupper) hcovers
        refine ⟨d, hd, hid, List.mem_cons_of_mem _ ?_⟩
        rw [hupper]
        exact hmem

end Scope

end Orthography
