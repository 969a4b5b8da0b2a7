/-
The vocabulary of the token tree: kinds of tokens and kinds of trivia.

Each kind has a code by which tools refer to it, and a name.
-/

set_option autoImplicit false

namespace Orthography

/-! ## Tokens -/

inductive TokenKind where
  | eof
  /-- A string literal with its quotes, without the letters before them. -/
  | stringLiteral
  | unknown
  /-- A name that is no keyword. -/
  | identifier
  /-- A dollar sign and the name behind it. -/
  | dollarIdentifier
  /-- The literal part of a formatted string. -/
  | stringSegment
  | keyword
  | number
  | operator
  /-- What stands before or around the text of a string. -/
  | stringDelimiter
  deriving DecidableEq, Repr

namespace TokenKind

def all : List TokenKind :=
  [.eof, .stringLiteral, .unknown, .identifier, .dollarIdentifier, .stringSegment,
    .keyword, .number, .operator, .stringDelimiter]

def code : TokenKind → Nat
  | .eof => 1
  | .stringLiteral => 20
  | .unknown => 21
  | .identifier => 22
  | .dollarIdentifier => 23
  | .stringSegment => 24
  | .keyword => 30
  | .number => 31
  | .operator => 32
  | .stringDelimiter => 33

def name : TokenKind → String
  | .eof => "EOF"
  | .stringLiteral => "STRING_LITERAL"
  | .unknown => "UNKNOWN"
  | .identifier => "IDENTIFIER"
  | .dollarIdentifier => "DOLLAR_IDENTIFIER"
  | .stringSegment => "STRING_SEGMENT"
  | .keyword => "KEYWORD"
  | .number => "NUMBER"
  | .operator => "OPERATOR"
  | .stringDelimiter => "STRING_DELIMITER"

def ofCode? (n : Int) : Option TokenKind := all.find? fun kind => (kind.code : Int) == n

def ofName? (s : String) : Option TokenKind := all.find? fun kind => kind.name == s

/-- Is the text of such tokens checked for spelling? -/
def isCheckable : TokenKind → Bool
  | .stringLiteral | .unknown | .identifier | .dollarIdentifier | .stringSegment => true
  | _ => false

end TokenKind

/-! ## Trivia -/

inductive TriviaKind where
  /-- Blanks and line continuations. -/
  | whitespace
  | newline
  | comment
  deriving DecidableEq, Repr

namespace TriviaKind

def all : List TriviaKind := [.whitespace, .newline, .comment]

def code : TriviaKind → Nat
  | .whitespace => 1
  | .newline => 2
  | .comment => 3

def name : TriviaKind → String
  | .whitespace => "WHITESPACE"
  | .newline => "NEWLINE"
  | .comment => "COMMENT"

def ofCode? (n : Int) : Option TriviaKind := all.find? fun kind => (kind.code : Int) == n

def ofName? (s : String) : Option TriviaKind := all.find? fun kind => kind.name == s

end TriviaKind

/-- The refusal of a code that no kind of the given vocabulary has. -/
def unknownCodeMessage (n : Int) (vocabulary : String) : String :=
  toString n ++ " is not a valid " ++ vocabulary

end Orthography
