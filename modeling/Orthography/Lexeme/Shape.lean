/-
The shape of what stands at a place in a line.

A line is read with its line feed, and a place is given by what is left of the line from there. Each
function here measures one kind of lexeme at the beginning of a text: the answer is a length. The
longest run is taken everywhere, and where a shorter one could go on differently the rule says so.
-/
import Orthography.Text.Basic
import Orthography.Unicode.Word

set_option autoImplicit false

namespace Orthography.Lexeme

open Unicode

/-! ## Numbers -/

/-- The length of digits that satisfy `digit`, each of them perhaps behind one underscore. -/
def digitsLength (digit : Char → Bool) : Text → Nat
  | [] => 0
  | [c] => if digit c then 1 else 0
  | c :: d :: rest =>
    if digit c then 1 + digitsLength digit (d :: rest)
    else if c = '_' && digit d then 2 + digitsLength digit rest
    else 0

/-- The length of a decimal part: a digit, then digits and single underscores between them. -/
def decimalLength? (t : Text) : Option Nat :=
  match t with
  | c :: rest => if c.isDigit then some (1 + digitsLength Char.isDigit rest) else none
  | [] => none

def exponentLength? (t : Text) : Option Nat :=
  match t with
  | e :: sign :: rest =>
    if e = 'e' || e = 'E' then
      if sign = '+' || sign = '-' then (decimalLength? rest).map (2 + ·)
      else (decimalLength? (sign :: rest)).map (1 + ·)
    else none
  | _ => none

/-- The length of digits with a point between, behind or before them. -/
def pointLength? (t : Text) : Option Nat :=
  match decimalLength? t with
  | some whole =>
    match t.drop whole with
    | '.' :: rest => some (whole + 1 + (decimalLength? rest).getD 0)
    | _ => none
  | none =>
    match t with
    | '.' :: rest => (decimalLength? rest).map (1 + ·)
    | _ => none

def floatLength? (t : Text) : Option Nat :=
  match pointLength? t with
  | some n => some (n + (exponentLength? (t.drop n)).getD 0)
  | none => do
    let n ← decimalLength? t
    let e ← exponentLength? (t.drop n)
    some (n + e)

/-- The length of an imaginary number: any decimal or float and the letter behind it. -/
def imaginaryLength? (t : Text) : Option Nat :=
  let marked (n : Nat) : Option Nat :=
    match t.drop n with
    | c :: _ => if c = 'j' || c = 'J' then some (n + 1) else none
    | [] => none
  (decimalLength? t >>= marked) <|> (floatLength? t >>= marked)

/-- The length of digits of a radix behind their mark. -/
def radixLength? (mark capital : Char) (digit : Char → Bool) (t : Text) : Option Nat :=
  match t with
  | '0' :: x :: rest =>
    let n := digitsLength digit rest
    if (x = mark || x = capital) && 0 < n then some (2 + n) else none
  | _ => none

/-- The length of a whole number. One that begins with zero holds zeros only. -/
def wholeLength? (t : Text) : Option Nat :=
  radixLength? 'x' 'X' Text.isHexDigit t
    <|> radixLength? 'b' 'B' (fun c => c = '0' || c = '1') t
    <|> radixLength? 'o' 'O' (fun c => '0' ≤ c && c ≤ '7') t
    <|> match t with
      | c :: rest =>
        if c = '0' then some (1 + digitsLength (· = '0') rest)
        else if c.isDigit then some (1 + digitsLength Char.isDigit rest)
        else none
      | [] => none

def numberLength? (t : Text) : Option Nat :=
  imaginaryLength? t <|> floatLength? t <|> wholeLength? t

/-! ## Operators -/

/-- The operators; of two that begin alike the longer one comes first. -/
def operators : List Text :=
  ["~", "\x7d", "|=", "|", "\x7b", "^=", "^", "]", "[", "@=", "@", ">>=", ">>", ">=", ">", "==",
    "=", "<=", "<<=", "<<", "<", ";", ":=", ":", "/=", "//=", "//", "/", "...", ".", "->", "-=",
    "-", ",", "+=", "+", "*=", "**=", "**", "*", ")", "(", "&=", "&", "%=", "%",
    "!="].map String.toList

def operatorLength? (t : Text) : Option Nat :=
  (operators.find? (·.isPrefixOf t)).map (·.length)

/-! ## Strings -/

def isQuote (c : Char) : Bool := c = '\'' || c = '"'

/-- May the letters stand before a quote? They are one of `b r u f`, or one of `b f` and `r` in
either order, capital or not. -/
def isStringMark (letters : Text) : Bool :=
  ["", "b", "r", "u", "f", "br", "rb", "fr", "rf"].contains
    (String.ofList (letters.map Char.toLower))

/-- The number of letters before a string's quote, and the quote. -/
def quoteAt? (t : Text) : Option (Nat × Char) :=
  let letters := t.takeWhile Char.isAlpha
  match t.drop letters.length with
  | q :: _ => if isQuote q && isStringMark letters then some (letters.length, q) else none
  | [] => none

/-- How a literal of one line goes on behind its opening quote. -/
inductive LiteralEnd where
  /-- Its closing quote ends the first `n` characters. -/
  | closed (n : Nat)
  /-- A backslash and the line end, the last of `n` characters, carry it on to the next line. -/
  | continued (n : Nat)
  | unclosed
  deriving DecidableEq, Repr

/-- The same end, `k` characters further on. -/
def LiteralEnd.shift (k : Nat) : LiteralEnd → LiteralEnd
  | .closed n => .closed (k + n)
  | .continued n => .continued (k + n)
  | .unclosed => .unclosed

/-- The end of a literal of one line, from behind its opening quote. -/
def literalEnd (quote : Char) : Text → LiteralEnd
  | [] => .unclosed
  | [c] => if c = quote then .closed 1 else .unclosed
  | c :: d :: rest =>
    if c = quote then .closed 1
    else if c = '\\' then
      if d = '\n' then .continued 2
      else if d = '\r' && rest.head? = some '\n' then .continued 3
      else (literalEnd quote rest).shift 2
    else if c = '\n' then .unclosed
    else (literalEnd quote (d :: rest)).shift 1

/-- The length of a literal of three quotes from behind its opening on, if it closes here. A
backslash before the line feed leaves it open. -/
def tripleEnd? (quote : Char) : Text → Option Nat
  | [] => none
  | [_] => none
  | c :: d :: rest =>
    if c = '\\' then
      if d = '\n' then none else (tripleEnd? quote rest).map (2 + ·)
    else if c = quote && d = quote && rest.head? = some quote then some 3
    else (tripleEnd? quote (d :: rest)).map (1 + ·)

/-! ## All shapes -/

/-- What stands at a place. -/
inductive Shape where
  | continuation
  | comment
  /-- The opening of a literal of three quotes, the letters before it included. -/
  | tripleOpening (quote : Char)
  | number
  | lineEnd
  | operator
  | literal
  /-- A literal that goes on behind a backslash at the line end. -/
  | openLiteral (quote : Char)
  /-- A run of word characters. -/
  | word
  deriving DecidableEq, Repr

def lineEndLength? (t : Text) : Option Nat :=
  match t with
  | '\n' :: _ => some 1
  | '\r' :: '\n' :: _ => some 2
  | _ => none

/-- A string at the beginning of a text: its opening of three quotes, or the whole of it. -/
def stringShape? (t : Text) : Option (Shape × Nat) := do
  let (letters, quote) ← quoteAt? t
  if [quote, quote, quote].isPrefixOf (t.drop letters) then
    some (.tripleOpening quote, letters + 3)
  else
    match literalEnd quote (t.drop (letters + 1)) with
    | .closed n => some (.literal, letters + 1 + n)
    | .continued n => some (.openLiteral quote, letters + 1 + n)
    | .unclosed => none

/-- The shape at the beginning of a text, and its length. -/
def shape? (t : Text) : Option (Shape × Nat) :=
  match t with
  | [] => none
  | '\\' :: rest => (lineEndLength? rest).map fun n => (.continuation, 1 + n)
  | '#' :: _ => some (.comment, (t.takeWhile fun c => c != '\r' && c != '\n').length)
  | _ =>
    (numberLength? t).map (.number, ·)
      <|> (lineEndLength? t).map (.lineEnd, ·)
      <|> (operatorLength? t).map (.operator, ·)
      <|> stringShape? t
      <|> let run := t.takeWhile isWord
          if run.isEmpty then none else some (.word, run.length)

end Orthography.Lexeme
