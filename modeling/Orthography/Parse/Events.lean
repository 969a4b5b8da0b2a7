/-
From lexemes to the events that build a token tree.

The events spell the source in full: what stands between two lexemes becomes a piece of white space,
and so does what stands behind the last one. Two rules join and split lexemes. A dollar sign with a
name right behind it makes one token, any other dollar sign one of its own. The letters before a
string literal become a token of their own, so that they never read as a word.
-/
import Orthography.Lexeme.Basic
import Orthography.Tree.Builder
import Orthography.Unicode.Blank

set_option autoImplicit false

namespace Orthography

/-! ## Where the events have got to -/

/-- How far the source is spelled. -/
structure Cursor where
  /-- The offset behind what was spelled. -/
  offset : Nat
  /-- The source from there on. -/
  rest : Text
  /-- A dollar sign that waits for a name, by its offset. -/
  dollar : Option Nat
  deriving Repr

namespace Cursor

/-- The beginning of a source. -/
def start (source : Text) : Cursor := ⟨0, source, none⟩

/-- The cursor moved on to an offset, if that lies ahead. -/
def advance (c : Cursor) (offset : Nat) : Cursor :=
  { c with offset := max c.offset offset, rest := c.rest.drop (offset - c.offset) }

/-- White space for what lies before an offset. -/
def gap (c : Cursor) (offset : Nat) : List Event :=
  if c.offset < offset then
    [.trivia .whitespace (c.rest.take (offset - c.offset)) c.offset]
  else []

/-- A waiting dollar sign gets no name. -/
def flush (c : Cursor) : List Event × Cursor :=
  match c.dollar with
  | some offset => ([.token .unknown ['$'] offset], { c.advance (offset + 1) with dollar := none })
  | none => ([], c)

end Cursor

/-! ## Lexemes -/

def keywords : List Text :=
  ["False", "None", "True", "and", "as", "assert", "async", "await", "break", "class", "continue",
    "def", "del", "elif", "else", "except", "finally", "for", "from", "global", "if", "import",
    "in", "is", "lambda", "nonlocal", "not", "or", "pass", "raise", "return", "try", "while",
    "with", "yield"].map String.toList

namespace Lexeme

/-- Does the lexeme stand for a character that is left out, such as a blank before an error? -/
def isBlankError (x : Lexeme) : Bool := x.kind = .error && x.text.all Unicode.isBlank

def isDollar (x : Lexeme) : Bool := x.kind = .error && x.text = ['$']

/-- Does the lexeme carry the name of the dollar sign at an offset? -/
def names (x : Lexeme) (dollar : Nat) : Bool := x.kind = .name && x.start = dollar + 1

/-- A string literal, the letters before it apart. -/
def stringEvents (text : Text) (start : Nat) : List Event :=
  let letters := text.takeWhile Char.isAlpha
  if letters.isEmpty then [.token .stringLiteral text start]
  else
    [.token .stringDelimiter letters start,
      .token .stringLiteral (text.drop letters.length) (start + letters.length : Nat)]

/-- The events of a lexeme by itself. -/
def events (x : Lexeme) : List Event :=
  match x.kind with
  | .comment => [.trivia .comment x.text x.start]
  | .lineBreak => [.trivia .newline x.text x.start]
  | .newline => [.trivia .newline x.text x.start, .endLine]
  | .name => [.token (if keywords.contains x.text then .keyword else .identifier) x.text x.start]
  | .number => [.token .number x.text x.start]
  | .operator => [.token .operator x.text x.start]
  | .string => stringEvents x.text x.start
  | .error => if x.isDollar then [] else [.token .unknown x.text x.start]
  | .indent => [.startBlock]
  | .dedent => [.finishBlock]

end Lexeme

/-! ## Sources -/

namespace Cursor

/-- The events of the next lexeme, and the cursor behind it. -/
def feed (c : Cursor) (x : Lexeme) : List Event × Cursor :=
  match x.kind with
  | .indent | .dedent => (x.events, c)
  | _ =>
    match c.dollar.filter x.names with
    | some dollar =>
      ([.token .dollarIdentifier ('$' :: x.text) dollar], { c.advance x.stop with dollar := none })
    | none =>
      let (flushed, c) := c.flush
      if x.isBlankError then (flushed, c)
      else
        (flushed ++ c.gap x.start ++ x.events,
          { c.advance x.stop with dollar := if x.isDollar then some x.start else none })

/-- The events for what is left once the lexemes have ended. -/
def close (c : Cursor) (length : Nat) : List Event :=
  let (flushed, c) := c.flush
  flushed ++ c.gap length

/-- The events of lexemes from a cursor on, in a source of `length` characters. -/
def events (c : Cursor) (length : Nat) : List Lexeme → List Event
  | [] => c.close length
  | x :: rest =>
    let (now, c) := c.feed x
    now ++ events c length rest

end Cursor

namespace Event

/-- The events that spell a source with the given lexemes. -/
def ofLexemes (source : Text) (lexemes : List Lexeme) : List Event :=
  (Cursor.start source).events source.length lexemes

end Event

/-- The token tree of a source with the given lexemes. -/
def Tree.ofLexemes (source : Text) (lexemes : List Lexeme) : Tree :=
  (Builder.run (Event.ofLexemes source lexemes)).tree source source.length

end Orthography
