/-
Who owns whom in a program of lines and blocks.

The builder is told of tokens, line ends and blocks one by one, and keeps stacks. A `Program` is the
same as data: logical lines that are not empty, each perhaps with a block of its own, which is a
program again. For programs there is a rule about owners that mentions no stack (`Program.owners`).
The first token of a line is owned by the line that the block around it belongs to. Any other token
is owned by the innermost bracket of its line that is open before it, and where there is none by the
first token of the line. A bracket is open as long as no stretch of tokens right behind it holds
more closing brackets than opening ones (`Line.isOpen`), whatever their shapes and whatever stands
before it.

Main statement, `Program.owners_tree`: the owners in the finished tree are those of the rule, and
the tokens stand in the order of feeding, wherever trivia is fed among them. An order and the owners
determine a tree.
-/
import Mathlib.Data.List.Find
import Mathlib.Data.List.Infix
import Orthography.Proofs.Tree.Places

set_option autoImplicit false

namespace Orthography

/-! ## Programs -/

/-- What a token is by itself. -/
structure Leaf where
  kind : TokenKind
  text : Text
  offset : Int
  deriving DecidableEq, Repr

namespace Leaf

/-- The event that feeds the token. -/
def event (t : Leaf) : Event := .token t.kind t.text t.offset

def opens (t : Leaf) : Bool := t.kind = .operator && Builder.opens t.text

def closes (t : Leaf) : Bool := t.kind = .operator && Builder.closes t.text

/-- No bracket does both. -/
theorem closes_of_opens (t : Leaf) (h : t.opens = true) : t.closes = false := by
  rw [opens, Builder.opens] at h
  rw [closes, Builder.closes]
  simp only [Bool.and_eq_true, Bool.or_eq_true, decide_eq_true_eq] at h
  obtain ⟨-, (h | h) | h⟩ := h <;> simp [h]

end Leaf

/-- A logical line, which is not empty. -/
structure Line where
  first : Leaf
  rest : List Leaf
  deriving DecidableEq, Repr

/-- Logical lines one behind the other, each perhaps with a block. -/
inductive Program where
  | done
  | line (line : Line) (rest : Program)
  /-- A line with the block that belongs to it. -/
  | block (line : Line) (body rest : Program)
  deriving Repr

def Line.tokens (line : Line) : List Leaf := line.first :: line.rest

namespace Program

def tokens : Program → List Leaf
  | done => []
  | line l rest => l.tokens ++ rest.tokens
  | block l body rest => l.tokens ++ body.tokens ++ rest.tokens

/-- The events that feed the program. -/
def events : Program → List Event
  | done => []
  | line l rest => l.tokens.map Leaf.event ++ .endLine :: rest.events
  | block l body rest =>
    l.tokens.map Leaf.event
      ++ .endLine :: .startBlock :: (body.events ++ .finishBlock :: rest.events)

end Program

/-! ## The rule -/

namespace Line

/-- Is the bracket at a place of a line still open behind the tokens `fed` of the line? -/
def isOpen (fed : List Leaf) (place : Nat) : Bool :=
  fed[place]?.any Leaf.opens
    && (fed.drop (place + 1)).inits.all fun part => part.countP Leaf.closes ≤ part.countP Leaf.opens

/-- The place of the bracket that was opened last among those still open. -/
def innermost? (fed : List Leaf) : Option Nat :=
  (List.range fed.length).reverse.find? (isOpen fed)

/-- The owners of a line's tokens. Its first token has the number `n` and is owned by `owner`. -/
def owners (line : Line) (owner : Option Nat) (n : Nat) : List (Option Nat) :=
  owner :: (List.range line.rest.length).map fun k =>
    some (n + (innermost? (line.tokens.take (k + 1))).getD 0)

end Line

/-- The owners of a program's tokens, which are numbered from `n` on. The block around it belongs to
the line that begins with the token `owner`. -/
def Program.owners (owner : Option Nat) (n : Nat) : Program → List (Option Nat)
  | done => []
  | line l rest => l.owners owner n ++ rest.owners owner (n + l.tokens.length)
  | block l body rest =>
    l.owners owner n ++ body.owners (some n) (n + l.tokens.length)
      ++ rest.owners owner (n + l.tokens.length + body.tokens.length)

/-! ## Open brackets -/

namespace Line

/-- Like `isOpen`, but `depth` more closing brackets would leave the bracket open too. -/
def isOpenBy (depth : Nat) (fed : List Leaf) (place : Nat) : Bool :=
  isOpen fed place
    && (fed.drop (place + 1)).countP Leaf.closes + depth
      ≤ (fed.drop (place + 1)).countP Leaf.opens

/-- The bracket that is the innermost one behind `depth` more closing brackets. -/
def innermostBy? (depth : Nat) (fed : List Leaf) : Option Nat :=
  (List.range fed.length).reverse.find? (isOpenBy depth fed)

theorem isOpenBy_zero (fed : List Leaf) (place : Nat) :
    isOpenBy 0 fed place = isOpen fed place := by
  rw [isOpenBy, Nat.add_zero, Bool.and_eq_left_iff_imp]
  intro h
  -- all that stands behind the bracket is one of the stretches
  rw [isOpen, Bool.and_eq_true, List.all_eq_true] at h
  exact h.2 _ ((List.mem_inits _ _).mpr (List.prefix_refl _))

theorem innermostBy?_zero (fed : List Leaf) : innermostBy? 0 fed = innermost? fed := by
  rw [innermostBy?, innermost?]
  exact congrArg (List.find? · _) (funext (isOpenBy_zero fed))

/-- A token at the end is open if it opens a bracket. -/
theorem isOpenBy_last (depth : Nat) (fed : List Leaf) (t : Leaf) :
    isOpenBy depth (fed ++ [t]) fed.length = (t.opens && decide (depth = 0)) := by
  have hdrop : (fed ++ [t]).drop (fed.length + 1) = [] := by simp
  rw [isOpenBy, isOpen, hdrop]
  simp

/-- One more token bears upon the brackets before it by the counts alone. So to know which bracket
is open, it is enough to count closing ones from the end. -/
theorem isOpenBy_append (depth : Nat) (fed : List Leaf) (t : Leaf) {place : Nat}
    (h : place < fed.length) :
    isOpenBy depth (fed ++ [t]) place
      = (isOpen fed place
        && decide ((fed.drop (place + 1)).countP Leaf.closes + [t].countP Leaf.closes + depth
          ≤ (fed.drop (place + 1)).countP Leaf.opens + [t].countP Leaf.opens)) := by
  have hdrop : (fed ++ [t]).drop (place + 1) = fed.drop (place + 1) ++ [t] :=
    List.drop_append_of_le_length h
  rw [isOpenBy, isOpen, isOpen, hdrop, List.getElem?_append_left h, List.inits_append,
    List.all_append, List.countP_append, List.countP_append]
  simp only [List.inits, List.map_cons, List.map_nil, List.tail_cons, List.all_cons, List.all_nil,
    List.countP_append, Bool.and_true]
  rw [Bool.eq_iff_iff]
  simp only [Bool.and_eq_true, decide_eq_true_eq]
  constructor
  · rintro ⟨⟨hopens, hall, -⟩, hle⟩
    exact ⟨⟨hopens, hall⟩, hle⟩
  · rintro ⟨⟨hopens, hall⟩, hle⟩
    exact ⟨⟨hopens, hall, by omega⟩, hle⟩

/-- What one more token does to the brackets, each at its depth: an opening bracket is the innermost
one from now on, a closing one leaves that to the bracket around. -/
theorem innermostBy?_append (depth : Nat) (fed : List Leaf) (t : Leaf) :
    innermostBy? depth (fed ++ [t])
      = if t.opens then if depth = 0 then some fed.length else innermostBy? (depth - 1) fed
        else innermostBy? (depth + if t.closes then 1 else 0) fed := by
  have hrange : (List.range (fed ++ [t]).length).reverse
      = fed.length :: (List.range fed.length).reverse := by
    rw [List.length_append, List.length_singleton, List.range_succ, List.reverse_append]
    rfl
  -- among the brackets before it, the token matters by how it shifts the depth
  have hbefore : ∀ other,
      (∀ place, place < fed.length → isOpenBy depth (fed ++ [t]) place = isOpenBy other fed place) →
      (List.range fed.length).reverse.find? (isOpenBy depth (fed ++ [t]))
        = innermostBy? other fed := by
    intro other hsame
    refine List.find?_congr fun place hplace => ?_
    exact hsame place (List.mem_range.mp (List.mem_reverse.mp hplace))
  rw [innermostBy?, hrange, List.find?_cons, isOpenBy_last]
  cases hopens : t.opens with
  | true =>
    have hcloses : t.closes = false := t.closes_of_opens hopens
    cases depth with
    | zero => simp
    | succ depth =>
      simp only [Nat.succ_ne_zero, decide_false, Bool.and_false, if_true, if_false,
        Nat.add_sub_cancel]
      refine hbefore depth fun place hplace => ?_
      rw [isOpenBy_append (depth + 1) fed t hplace, isOpenBy]
      congr 1
      simp only [List.countP_singleton, hopens, hcloses]
      simp
      omega
  | false =>
    simp only [Bool.false_and, Bool.false_eq_true, if_false]
    refine hbefore _ fun place hplace => ?_
    rw [isOpenBy_append depth fed t hplace, isOpenBy]
    congr 1
    cases hcloses : t.closes <;> simp [hopens, hcloses, Nat.add_assoc, Nat.add_comm 1]

end Line

/-! ## Trivia aside -/

namespace Builder

/-- The builder without any trivia. -/
def bareOfTrivia (b : Builder) : Builder :=
  { b with
    entries := b.entries.map fun e => { e with leading := [] }
    trailing := []
    waiting := []
    codeOnLine := false }

theorem nextId_bareOfTrivia (b : Builder) : b.bareOfTrivia.nextId = b.nextId := by
  rw [nextId, nextId, bareOfTrivia]
  cases b.entries <;> rfl

/-- What an event does apart from trivia hangs on no trivia. Owners are decided by lines, brackets
and blocks, and trivia are in none of these. -/
theorem bareOfTrivia_step (b : Builder) (e : Event) :
    (b.step e).bareOfTrivia = (b.bareOfTrivia.step e).bareOfTrivia := by
  cases e with
  | token kind text offset =>
    have hnext := b.nextId_bareOfTrivia
    have howner : b.bareOfTrivia.ownerOfNext = b.ownerOfNext := rfl
    simp only [step, addToken, hnext, howner]
    simp [bareOfTrivia]
  | trivia kind text offset =>
    obtain ⟨trailing, waiting, codeOnLine, heq⟩ := b.addTrivia_eq ⟨kind, text, offset⟩
    obtain ⟨trailing', waiting', codeOnLine', heq'⟩ :=
      b.bareOfTrivia.addTrivia_eq ⟨kind, text, offset⟩
    rw [step, step, heq, heq']
    simp [bareOfTrivia]
  | endLine | startBlock | finishBlock | finish => simp [step, bareOfTrivia, blockOwner]

/-- What trivia do to a builder cannot be seen once they are taken away. This is why the owners of
tokens may be read off a program that has none. -/
theorem bareOfTrivia_step_trivia (b : Builder) {e : Event} (h : e.isTrivia = true) :
    (b.step e).bareOfTrivia = b.bareOfTrivia := by
  cases e with
  | trivia kind text offset =>
    obtain ⟨trailing, waiting, codeOnLine, heq⟩ := b.addTrivia_eq ⟨kind, text, offset⟩
    rw [step, heq]
    rfl
  | token | endLine | startBlock | finishBlock | finish => simp [Event.isTrivia] at h

/-- Two builders that are alike but for trivia stay so when one of them gets no trivia. -/
theorem bareOfTrivia_foldl {b c : Builder} (h : b.bareOfTrivia = c.bareOfTrivia)
    (events : List Event) :
    (events.foldl step b).bareOfTrivia
      = ((events.filter (!·.isTrivia)).foldl step c).bareOfTrivia := by
  induction events generalizing b c with
  | nil => exact h
  | cons e rest ih =>
    rw [List.foldl_cons]
    cases htrivia : e.isTrivia with
    | true =>
      rw [List.filter_cons_of_neg (by simp [htrivia])]
      exact ih ((b.bareOfTrivia_step_trivia htrivia).trans h)
    | false =>
      rw [List.filter_cons_of_pos (by simp [htrivia]), List.foldl_cons]
      exact ih (by rw [b.bareOfTrivia_step, h, ← c.bareOfTrivia_step])

/-! ## What a line does -/

/-- The owners of the tokens in the order of feeding. -/
def owners (b : Builder) : List (Option Nat) := b.entries.reverse.map (·.owner)

theorem length_owners (b : Builder) : b.owners.length = b.entries.length := by
  rw [owners, List.length_map, List.length_reverse]

theorem owners_addToken (b : Builder) (kind : TokenKind) (text : Text) (offset : Int) :
    (b.addToken kind text offset).owners = b.owners ++ [b.ownerOfNext] := by
  rw [owners, addToken, List.reverse_cons, List.map_append]
  rfl

theorem owners_bareOfTrivia (b : Builder) : b.bareOfTrivia.owners = b.owners := by
  rw [owners, owners, bareOfTrivia, ← List.map_reverse, List.map_map]
  rfl

/-- The brackets behind a token, by what the token does. -/
theorem bracketsAfter_eq (t : Leaf) (id : Nat) (brackets : List Nat) :
    bracketsAfter t.kind t.text id brackets
      = if t.opens then id :: brackets else if t.closes then brackets.tail else brackets := by
  by_cases hkind : t.kind = .operator
  · simp [bracketsAfter, Leaf.opens, Leaf.closes, hkind]
  · simp [bracketsAfter, Leaf.opens, Leaf.closes, hkind]

/-- A builder between two lines. -/
structure Between (b : Builder) : Prop where
  sound : b.Sound
  head : b.head = none
  brackets : b.brackets = []

/-- The builder `c` has come from `b`, which was between two lines, by the tokens `first :: fed` of
a line. -/
structure Reads (b c : Builder) (first : Leaf) (fed : List Leaf) : Prop where
  sound : c.Sound
  /-- The line has begun with the first of them. -/
  head : c.head = some b.entries.length
  blocks : c.blocks = b.blocks
  owners : c.owners = b.owners ++ (Line.mk first fed).owners b.blockOwner b.entries.length
  /-- The open brackets are those that closing brackets would leave to be the innermost ones. -/
  brackets : ∀ depth, c.brackets[depth]?
    = (Line.innermostBy? depth (first :: fed)).map (b.entries.length + ·)

theorem Between.reads {b : Builder} (h : b.Between) (first : Leaf) :
    Reads b (b.step first.event) first [] := by
  have hnext := nextId_of_ids h.sound.ids
  constructor
  · exact h.sound.step first.event
  · simp [step, Leaf.event, addToken, h.head, h.brackets, hnext]
  · rfl
  · rw [Leaf.event, step, owners_addToken, ownerOfNext, h.head, h.brackets]
    rfl
  · intro depth
    have hsingle := Line.innermostBy?_append depth [] first
    rw [List.nil_append] at hsingle
    rw [hsingle, Leaf.event, step, addToken, bracketsAfter_eq, h.brackets, hnext]
    cases first.opens <;> cases first.closes <;> cases depth <;> simp [Line.innermostBy?]

/-- One more token of the line. It is owned by the innermost bracket that is still open among the
tokens of the line, or by the line's first token if there is none. -/
theorem Reads.step {b c : Builder} {first : Leaf} {fed : List Leaf} (h : Reads b c first fed)
    (t : Leaf) : Reads b (c.step t.event) first (fed ++ [t]) := by
  have hnext : c.nextId = b.entries.length + (first :: fed).length := by
    rw [nextId_of_ids h.sound.ids, ← c.length_owners, h.owners, List.length_append,
      b.length_owners, Line.owners]
    simp
  -- the innermost bracket of the builder is the innermost one open among the tokens
  have howner : c.ownerOfNext
      = some (b.entries.length + (Line.innermost? (first :: fed)).getD 0) := by
    have hinnermost := h.brackets 0
    rw [Line.innermostBy?_zero] at hinnermost
    rw [ownerOfNext, h.head]
    cases hbrackets : c.brackets with
    | nil =>
      rw [hbrackets, List.getElem?_nil, eq_comm, Option.map_eq_none_iff] at hinnermost
      simp [hinnermost]
    | cons bracket more =>
      rw [hbrackets, List.getElem?_cons_zero, eq_comm, Option.map_eq_some_iff] at hinnermost
      obtain ⟨place, hplace, rfl⟩ := hinnermost
      simp [hplace]
  constructor
  · exact h.sound.step t.event
  · simp [Builder.step, Leaf.event, addToken, h.head]
  · exact h.blocks
  · rw [Leaf.event, Builder.step, owners_addToken, h.owners, howner, List.append_assoc]
    congr 1
    simp only [Line.owners, Line.tokens, List.length_append, List.length_singleton,
      List.range_succ, List.map_append, List.map_singleton, List.cons_append]
    congr 2
    -- the tokens read so far keep their owners, since a later one does not change these
    · refine List.map_congr_left fun k hk => ?_
      have hk := List.mem_range.mp hk
      rw [List.take_succ_cons, List.take_succ_cons, List.take_append_of_le_length (by omega)]
    · rw [List.take_succ_cons, List.take_left]
  · intro depth
    have happend := Line.innermostBy?_append depth (first :: fed) t
    rw [List.cons_append] at happend
    rw [happend, Leaf.event, Builder.step, addToken, bracketsAfter_eq, hnext]
    -- a bracket that opens goes on top, one that closes takes the top away
    cases hopens : t.opens with
    | true =>
      cases depth with
      | zero => rfl
      | succ depth => exact h.brackets depth
    | false =>
      cases hcloses : t.closes with
      | true => simpa using h.brackets (depth + 1)
      | false => exact h.brackets depth

theorem Between.reads_tokens {b : Builder} (h : b.Between) (line : Line) :
    Reads b ((line.tokens.map Leaf.event).foldl Builder.step b) line.first line.rest := by
  obtain ⟨first, rest⟩ := line
  induction rest using List.reverseRecOn with
  | nil => exact h.reads first
  | append_singleton fed t ih =>
    have hsplit : ((Line.mk first (fed ++ [t])).tokens.map Leaf.event).foldl Builder.step b
        = (((Line.mk first fed).tokens.map Leaf.event).foldl Builder.step b).step t.event := by
      simp [Line.tokens]
    rw [hsplit]
    exact ih.step t

/-! ## What a program does -/

/-- The builder `c` has come from `b` by tokens with the given owners, both of them between two
lines and in the same block. -/
structure Passes (b c : Builder) (owners : List (Option Nat)) : Prop where
  between : c.Between
  blocks : c.blocks = b.blocks
  owners : c.owners = b.owners ++ owners

theorem Passes.length_eq {b c : Builder} {owners : List (Option Nat)} (h : Passes b c owners) :
    c.entries.length = b.entries.length + owners.length := by
  rw [← c.length_owners, h.owners, List.length_append, b.length_owners]

theorem Passes.blockOwner_eq {b c : Builder} {owners : List (Option Nat)}
    (h : Passes b c owners) : c.blockOwner = b.blockOwner := by
  rw [blockOwner, blockOwner, h.blocks]

theorem Passes.trans {b c d : Builder} {owners more : List (Option Nat)} (h : Passes b c owners)
    (h' : Passes c d more) : Passes b d (owners ++ more) where
  between := h'.between
  blocks := h'.blocks.trans h.blocks
  owners := by rw [h'.owners, h.owners, List.append_assoc]

end Builder

theorem Line.length_owners (line : Line) (owner : Option Nat) (n : Nat) :
    (line.owners owner n).length = line.tokens.length := by
  simp [owners, tokens]

theorem Program.length_owners (p : Program) (owner : Option Nat) (n : Nat) :
    (p.owners owner n).length = p.tokens.length := by
  induction p generalizing owner n with
  | done => rfl
  | line l rest hrest => simp [owners, tokens, l.length_owners, hrest]
  | block l body rest hbody hrest => simp [owners, tokens, l.length_owners, hbody, hrest]

namespace Builder

/-- A line with its end. The line that it is knows its first token. -/
theorem Between.line {b : Builder} (h : b.Between) (line : Line) :
    let c := (line.tokens.map Leaf.event ++ [Event.endLine]).foldl step b
    Passes b c (line.owners b.blockOwner b.entries.length)
      ∧ c.lastHead = some b.entries.length := by
  intro c
  have hc : c = ((line.tokens.map Leaf.event).foldl Builder.step b).step .endLine := by
    simp [c]
  have hreads := h.reads_tokens line
  rw [hc]
  refine ⟨⟨⟨hreads.sound.step .endLine, rfl, rfl⟩, hreads.blocks, hreads.owners⟩, ?_⟩
  simp [Builder.step, hreads.head]

/-- A block whose body is between its lines behind the line that the block belongs to. -/
theorem Between.startBlock {b : Builder} (h : b.Between) {n : Nat} (hlast : b.lastHead = some n) :
    (b.step .startBlock).Between ∧ (b.step .startBlock).blocks = some n :: b.blocks
      ∧ (b.step .startBlock).blockOwner = some n := by
  refine ⟨⟨h.sound.step .startBlock, h.head, h.brackets⟩, ?_, ?_⟩
  · simp [Builder.step, hlast]
  · simp [Builder.step, hlast, blockOwner]

/-- **Programs.** The tokens of a program are owned as the rule says. The induction is on the
program: a line, and behind it the block that it introduces, if any, and the rest. -/
theorem Between.program (p : Program) {b : Builder} (h : b.Between) :
    Passes b (p.events.foldl step b) (p.owners b.blockOwner b.entries.length) := by
  induction p generalizing b with
  | done => exact ⟨h, rfl, (List.append_nil _).symm⟩
  | line l rest hrest =>
    obtain ⟨hline, -⟩ := h.line l
    have hbehind := hrest hline.between
    rw [hline.blockOwner_eq, hline.length_eq, l.length_owners] at hbehind
    have hsplit : (Program.line l rest).events.foldl step b
        = rest.events.foldl step ((l.tokens.map Leaf.event ++ [Event.endLine]).foldl step b) := by
      simp [Program.events]
    rw [hsplit]
    exact hline.trans hbehind
  | block l body rest hbody hrest =>
    obtain ⟨hline, hlast⟩ := h.line l
    generalize hc : (l.tokens.map Leaf.event ++ [Event.endLine]).foldl step b = c at hline hlast
    obtain ⟨hstart, hblocks, howner⟩ := hline.between.startBlock hlast
    -- in the block all is owned by the line; behind it, by whatever the line is in
    have hin := hbody hstart
    generalize hd : body.events.foldl step (c.step .startBlock) = d at hin
    have hpasses : Passes b (d.step .finishBlock)
        (l.owners b.blockOwner b.entries.length
          ++ body.owners (some b.entries.length) (b.entries.length + l.tokens.length)) := by
      refine ⟨⟨hin.between.sound.step .finishBlock, hin.between.head, hin.between.brackets⟩, ?_, ?_⟩
      · rw [Builder.step, hin.blocks, hblocks, List.tail_cons, hline.blocks]
      · have hlength :
            (c.step .startBlock).entries.length = b.entries.length + l.tokens.length := by
          rw [← l.length_owners b.blockOwner b.entries.length]
          exact hline.length_eq
        have howners := hin.owners
        rw [howner, hlength] at howners
        exact howners.trans ((congrArg (· ++ _) hline.owners).trans (List.append_assoc _ _ _))
    have hbehind := hrest hpasses.between
    rw [hpasses.blockOwner_eq, hpasses.length_eq, List.length_append, l.length_owners,
      body.length_owners, ← Nat.add_assoc] at hbehind
    have hsplit : (Program.block l body rest).events.foldl step b
        = rest.events.foldl step (d.step .finishBlock) := by
      simp [Program.events, ← hd, ← hc]
    rw [hsplit]
    exact hpasses.trans hbehind

end Builder

/-! ## The tree of a program -/

namespace Event

theorem filter_isToken_filter (events : List Event) :
    (events.filter (!·.isTrivia)).filter isToken = events.filter isToken := by
  rw [List.filter_filter]
  refine List.filter_congr fun e _ => ?_
  cases e <;> rfl

end Event

namespace Program

theorem filter_isToken_events (p : Program) :
    p.events.filter Event.isToken = p.tokens.map Leaf.event := by
  have hline : ∀ ts : List Leaf,
      (ts.map Leaf.event).filter Event.isToken = ts.map Leaf.event := by
    intro ts
    rw [List.filter_eq_self]
    intro e he
    obtain ⟨t, -, rfl⟩ := List.mem_map.mp he
    rfl
  induction p with
  | done => rfl
  | line l rest hrest =>
    rw [events, List.filter_append, hline, List.filter_cons_of_neg (by simp [Event.isToken]), hrest,
      tokens, List.map_append]
  | block l body rest hbody hrest =>
    rw [events, List.filter_append, hline, List.filter_cons_of_neg (by simp [Event.isToken]),
      List.filter_cons_of_neg (by simp [Event.isToken]), List.filter_append, hbody,
      List.filter_cons_of_neg (by simp [Event.isToken]), hrest, tokens, List.map_append,
      List.map_append, List.append_assoc]

/-- The blocks of a program begin between its lines. -/
theorem blocksBetween_events_append (p : Program) (more : List Event) :
    Event.blocksBetween false (p.events ++ more) = Event.blocksBetween false more := by
  have hline : ∀ (ts : List Leaf) (within : Bool) (more : List Event),
      Event.blocksBetween within (ts.map Leaf.event ++ .endLine :: more)
        = Event.blocksBetween false more := by
    intro ts
    induction ts with
    | nil => exact fun _ _ => rfl
    | cons t rest ih => exact fun _ more => ih true more
  induction p generalizing more with
  | done => rfl
  | line l rest hrest => rw [events, List.append_assoc, List.cons_append, hline, hrest]
  | block l body rest hbody hrest =>
    rw [events, List.append_assoc, List.cons_append, List.cons_append, hline, List.append_assoc,
      List.cons_append]
    exact (hbody _).trans (hrest more)

/-- **Nesting.** Feed a program with trivia anywhere in it. Then the tokens stand in the tree in the
order of feeding, and each is owned as the rule says. -/
theorem owners_tree (p : Program) {events : List Event}
    (h : events.filter (!·.isTrivia) = p.events) (source : Text) (eofOffset : Int) :
    let tree := (Builder.run events).tree source eofOffset
    tree.descendants.map Token.event = p.tokens.map Leaf.event ++ [.token .eof [] eofOffset]
      ∧ tree.places.map Place.owner = p.owners none 0 ++ [none] := by
  intro tree
  have hblocks : Event.blocksBetween false events = true := by
    rw [← Event.blocksBetween_filter, h, ← List.append_nil p.events,
      p.blocksBetween_events_append]
    rfl
  have hstrayed := Event.strayed_of_blocksBetween (l := {}) (by simp) hblocks
  constructor
  · rw [← p.filter_isToken_events, ← h, Event.filter_isToken_filter]
    exact Event.descendants_run hstrayed source eofOffset
  · have hsound := Builder.sound_run events
    have hempty : Builder.Between {} := ⟨Builder.sound_empty, rfl, rfl⟩
    -- trivia owns nothing, so it can be left out before the program is run
    have howners : (Builder.run events).owners = p.owners none 0 := by
      rw [← Builder.owners_bareOfTrivia, Builder.run,
        Builder.bareOfTrivia_foldl (c := {}) rfl events, h, Builder.owners_bareOfTrivia]
      exact (hempty.program p).owners
    rw [hsound.places_tree ((Builder.inTurn_run_iff events).mpr hstrayed) source eofOffset,
      List.map_append, List.map_map, ← howners]
    refine congrArg₂ (· ++ ·) (List.map_congr_left fun e he => ?_) rfl
    exact hsound.owner_placeOf (List.mem_reverse.mp he)

/-- A line that begins with a bracket, goes on with closing ones that do not match and leaves one
open has a block in which a line has a block; two blocks end before the last line, and a comment
stands behind the bracket. -/
theorem owners_tree_unbalanced :
    let leaf (kind : TokenKind) (c : Char) : Leaf := ⟨kind, [c], 0⟩
    let word := leaf .identifier
    let sign := leaf .operator
    let p : Program :=
      .block ⟨sign '(', [word 'a', sign ']', sign ')', sign '[', word 'b']⟩
        (.block ⟨word 'x', []⟩ (.line ⟨word 'y', []⟩ .done) .done)
        (.line ⟨word 'z', []⟩ .done)
    let events : List Event :=
      (sign '(').event :: .trivia .comment ['#'] 1 :: p.events.tail ++ [.trivia .newline ['\n'] 2]
    events.filter (!·.isTrivia) = p.events
      ∧ ((Builder.run events).tree [] 3).places.map Place.owner
        = [none, some 0, some 0, some 0, some 0, some 4, some 0, some 6, none, none] := by
  intro leaf word sign p events
  have hevents : events.filter (!·.isTrivia) = p.events := by decide
  have howners : p.owners none 0
      = [none, some 0, some 0, some 0, some 0, some 4, some 0, some 6, none] := by decide
  refine ⟨hevents, ?_⟩
  rw [(p.owners_tree hevents [] 3).2, howners]
  rfl

end Program

end Orthography
