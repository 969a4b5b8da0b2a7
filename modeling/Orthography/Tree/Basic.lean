/-
The token tree: tokens that own tokens, with the text between them hung on as trivia.

A token's children are the rest of its logical line, the contents of its bracket or the block it
introduces, in document order. Leading trivia stands before a token. Trailing trivia holds comments
that were written behind code on one line; they annotate the whole logical line, so they hang on its
first token although later tokens of the line stand before them.

Offsets are integers, because a tree may be put together by hand.
-/
import Orthography.Text.Span
import Orthography.Tree.Kind

set_option autoImplicit false

namespace Orthography

/-! ## Pieces, tokens and trees -/

structure Trivia where
  kind : TriviaKind
  text : Text
  offset : Int
  deriving DecidableEq, Repr

def Trivia.span (piece : Trivia) : Except BoundsError Span := do
  return Span.ofLength (← Offset.ofInt piece.offset) piece.text.length

/-- A token with all that belongs to it. -/
structure Token where
  kind : TokenKind
  text : Text
  offset : Int
  leading : List Trivia := []
  /-- Comments behind code of its logical line. -/
  trailing : List Trivia := []
  /-- The tokens it owns, in document order. -/
  children : List Token := []
  deriving Repr

/-- The end of a source, with the trivia before it. -/
def Token.endOfSource (offset : Int) (leading : List Trivia) : Token :=
  { kind := .eof, text := [], offset, leading }

/-- The token tree of a source. -/
structure Tree where
  source : Text
  tokens : List Token
  /-- The end of the source, which owns the trivia behind the last token. -/
  eof : Token
  deriving Repr

/-! ## What a token covers -/

namespace Token

/-- Where the token starts, its leading trivia included. -/
def start (t : Token) : Int :=
  match t.leading with
  | piece :: _ => piece.offset
  | [] => t.offset

def stop (t : Token) : Int := t.offset + t.text.length

def span (t : Token) : Except BoundsError Span := Span.ofInts t.offset t.stop

def leadingText (t : Token) : Text := t.leading.flatMap (·.text)

/-- The trivia before the token, then the trivia behind its line. -/
def trivia (t : Token) : List Trivia := t.leading ++ t.trailing

/-- The token's comments, the leading ones first. -/
def comments (t : Token) : List Text :=
  (t.trivia.filter (·.kind = .comment)).map (·.text)

/-! ## Document order -/

mutual

/-- The token and all tokens below it, in document order, each with its depth. -/
def outline (depth : Nat) : Token → List (Nat × Token)
  | ⟨kind, text, offset, leading, trailing, children⟩ =>
    (depth, ⟨kind, text, offset, leading, trailing, children⟩) :: outlineAll (depth + 1) children

/-- The same for a row of tokens. -/
def outlineAll (depth : Nat) : List Token → List (Nat × Token)
  | [] => []
  | t :: rest => outline depth t ++ outlineAll depth rest

end

mutual

/-- The token and all tokens below it, in document order. -/
def descendants : Token → List Token
  | ⟨kind, text, offset, leading, trailing, children⟩ =>
    ⟨kind, text, offset, leading, trailing, children⟩ :: descendantsAll children

/-- The same for a row of tokens. -/
def descendantsAll : List Token → List Token
  | [] => []
  | t :: rest => descendants t ++ descendantsAll rest

end

/-- A token comes before what is below it. -/
theorem descendants_eq (t : Token) : t.descendants = t :: descendantsAll t.children := by
  cases t; rfl

/-- Rows of tokens one behind the other. -/
theorem descendantsAll_append (xs ys : List Token) :
    descendantsAll (xs ++ ys) = descendantsAll xs ++ descendantsAll ys := by
  induction xs with
  | nil => rfl
  | cons t rest ih => simp [descendantsAll, ih]

end Token

namespace Tree

def roots (tree : Tree) : List Token := tree.tokens ++ [tree.eof]

def descendants (tree : Tree) : List Token := Token.descendantsAll tree.roots

/-- Every token of the tree with its depth, in document order. -/
def outline (tree : Tree) : List (Nat × Token) := Token.outlineAll 0 tree.roots

/-! ## The text again -/

/-- A token's text and its trivia, each with its offset. -/
def fragments (t : Token) : List (Int × Text) :=
  t.leading.map (fun piece => (piece.offset, piece.text)) ++
    (t.offset, t.text) :: t.trailing.map fun piece => (piece.offset, piece.text)

/-- The text that tokens and trivia spell. A trailing comment stands behind later tokens of its
line, so the fragments are put in the order of their offsets; those at one offset keep theirs. -/
def textWithTrivia (tree : Tree) : Text :=
  ((tree.descendants.flatMap fragments).mergeSort fun a b => a.1 ≤ b.1).flatMap (·.2)

end Tree

end Orthography
