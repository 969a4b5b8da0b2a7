/-
From a flat run of events to a token tree.

The first token of a logical line owns the rest of the line. An opening bracket owns everything up
to and including its closing bracket. An indented block belongs to the first token of the line
before it. Trivia waits for the next token and becomes its leading trivia; a comment behind code on
one physical line goes, with the blanks before it, to the first token of the logical line instead.

The builder does not grow a tree in place. It numbers the tokens as they come and notes for each
one which token owns it; the tree is put together from these notes when it is asked for. So what an
event does to the tree is a fact about one entry, whatever blocks and brackets are open.
-/
import Orthography.Tree.Basic

set_option autoImplicit false

namespace Orthography

/-! ## Events -/

/-- What a front end tells the builder. -/
inductive Event where
  | token (kind : TokenKind) (text : Text) (offset : Int)
  | trivia (kind : TriviaKind) (text : Text) (offset : Int)
  | endLine
  | startBlock
  | finishBlock
  /-- The tree is asked for and the waiting trivia given away. -/
  | finish
  deriving DecidableEq, Repr

/-! ## The builder's state -/

/-- What is known of a token that was fed: its number, its owner (none for a top-level token) and
itself, children and trailing trivia aside. -/
structure Entry where
  /-- The number of the token in the order of feeding. -/
  id : Nat
  /-- The number of the token that owns it. -/
  owner : Option Nat
  kind : TokenKind
  text : Text
  offset : Int
  leading : List Trivia
  deriving Repr

/-- A tree that is being built. -/
structure Builder where
  /-- The tokens so far, the newest first. -/
  entries : List Entry := []
  /-- Trailing trivia with the token that owns it, the newest first. -/
  trailing : List (Nat × Trivia) := []
  /-- The owners of the open blocks, the innermost first; the top level lies below them. -/
  blocks : List (Option Nat) := []
  /-- The open brackets of the line, the innermost first. -/
  brackets : List Nat := []
  /-- The first token of the open logical line. -/
  head : Option Nat := none
  /-- The first token of the logical line before. -/
  lastHead : Option Nat := none
  /-- The trivia that waits for the next token. -/
  waiting : List Trivia := []
  /-- Does code stand on the current physical line? -/
  codeOnLine : Bool := false
  deriving Repr

namespace Builder

/-- The number that the next token gets. -/
def nextId (b : Builder) : Nat :=
  match b.entries with
  | [] => 0
  | newest :: _ => newest.id + 1

/-- The owner of a line that begins now. -/
def blockOwner (b : Builder) : Option Nat := b.blocks.headD none

/-- The owner of a token that comes now. -/
def ownerOfNext (b : Builder) : Option Nat :=
  match b.brackets, b.head with
  | bracket :: _, _ => some bracket
  | [], some head => some head
  | [], none => b.blockOwner

def opens (text : Text) : Bool := text = ['('] || text = ['['] || text = ['{']

def closes (text : Text) : Bool := text = [')'] || text = [']'] || text = ['}']

/-- The open brackets behind a token. -/
def bracketsAfter (kind : TokenKind) (text : Text) (id : Nat) (brackets : List Nat) : List Nat :=
  if kind = .operator then
    if opens text then id :: brackets
    else if closes text then brackets.tail
    else brackets
  else brackets

/-! ## Steps -/

/-- The builder behind a token. -/
def addToken (b : Builder) (kind : TokenKind) (text : Text) (offset : Int) : Builder :=
  let id := b.nextId
  { b with
    entries := ⟨id, b.ownerOfNext, kind, text, offset, b.waiting⟩ :: b.entries
    brackets := bracketsAfter kind text id b.brackets
    head := if b.brackets.isEmpty then b.head <|> some id else b.head
    waiting := []
    codeOnLine := true }

/-- The builder behind a piece of trivia; an empty piece is none. -/
def addTrivia (b : Builder) (piece : Trivia) : Builder :=
  if piece.text.isEmpty then b
  else if piece.kind = .comment && b.codeOnLine then
    match b.head with
    | some head =>
      { b with
        trailing := ((b.waiting ++ [piece]).map (head, ·)).reverse ++ b.trailing
        waiting := [] }
    | none => { b with waiting := b.waiting ++ [piece] }
  else
    { b with
      waiting := b.waiting ++ [piece]
      codeOnLine := b.codeOnLine && piece.kind != .newline }

def step (b : Builder) : Event → Builder
  | .token kind text offset => b.addToken kind text offset
  | .trivia kind text offset => b.addTrivia ⟨kind, text, offset⟩
  | .endLine => { b with lastHead := b.head <|> b.lastHead, head := none, brackets := [] }
  | .startBlock => { b with blocks := (b.lastHead <|> b.blockOwner) :: b.blocks }
  | .finishBlock => { b with blocks := b.blocks.tail }
  | .finish => { b with waiting := [] }

def run (events : List Event) : Builder := events.foldl step {}

/-! ## The tree

Tokens are put together from the last one back. A token comes after its owner, so when a token's
turn comes all it owns is already there, waiting under its number. -/

/-- Tokens that wait for their owner, one row for each owner. -/
abbrev Rows := List (Option Nat × List Token)

/-- The tokens that wait for an owner, in document order. -/
def Rows.get (rows : Rows) (owner : Option Nat) : List Token :=
  match rows with
  | [] => []
  | (other, tokens) :: rest => if other = owner then tokens else Rows.get rest owner

/-- One more token waits for an owner, before those that already do. -/
def Rows.put (rows : Rows) (owner : Option Nat) (t : Token) : Rows :=
  match rows with
  | [] => [(owner, [t])]
  | (other, tokens) :: rest =>
    if other = owner then (other, t :: tokens) :: rest else (other, tokens) :: Rows.put rest owner t

/-- No token waits for an owner any more. -/
def Rows.drop (rows : Rows) (owner : Option Nat) : Rows :=
  match rows with
  | [] => []
  | (other, tokens) :: rest =>
    if other = owner then Rows.drop rest owner else (other, tokens) :: Rows.drop rest owner

/-- The trailing trivia of a token, in the order of feeding. -/
def trailingOf (b : Builder) (id : Nat) : List Trivia :=
  ((b.trailing.filter (·.1 = id)).map (·.2)).reverse

/-- An entry with its children and its trailing trivia. -/
def assembleEntry (b : Builder) (rows : Rows) (e : Entry) : Token :=
  { kind := e.kind, text := e.text, offset := e.offset, leading := e.leading
    trailing := b.trailingOf e.id, children := rows.get (some e.id) }

/-- What waits once an entry is put together. -/
def assembleStep (b : Builder) (rows : Rows) (e : Entry) : Rows :=
  (rows.drop (some e.id)).put e.owner (b.assembleEntry rows e)

/-- The top-level tokens. -/
def topLevel (b : Builder) : List Token :=
  (b.entries.foldl b.assembleStep []).get none

/-- The tree as it stands, for a source that ends at an offset. -/
def tree (b : Builder) (source : Text) (eofOffset : Int) : Tree :=
  { source, tokens := b.topLevel, eof := Token.endOfSource eofOffset b.waiting }

end Builder

end Orthography
