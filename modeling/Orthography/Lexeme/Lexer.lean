/-
Reading the lexemes of a source, line by line.

Between lines four things carry over: how deep the brackets are, whether the line before ended in a
backslash, a string that is still open, and the widths of the open blocks. A line that begins a
statement is measured for its indentation first; every other line goes on where the one before it
stopped. A bracket that closes nothing takes the depth below zero, and the lines behind it then go
on as if they stood inside brackets.
-/
import Orthography.Lexeme.Basic
import Orthography.Lexeme.Shape
import Orthography.Unicode.Blank
import Orthography.Unicode.Identifier

set_option autoImplicit false

namespace Orthography

namespace Lexer

open Lexeme Unicode

/-! ## State -/

/-- A string that is still open at the end of a line. -/
structure OpenString where
  start : Nat
  text : Text
  quote : Char
  triple : Bool
  deriving Repr

/-- What carries over from one line to the next. -/
structure State where
  /-- Open brackets less closed ones. -/
  depth : Int := 0
  /-- Did the line before end in a backslash? -/
  continued : Bool := false
  openString : Option OpenString := none
  /-- Must each line of an open string end in a backslash? A literal of one line asks for it, and it
  is asked until a string closes. -/
  strict : Bool := false
  /-- The widths of the open blocks, the innermost first; the last one is zero. -/
  indents : List Nat := [0]
  deriving Repr

/-- Where the open string closes in a line. -/
def OpenString.close? (s : OpenString) (line : Text) : Option Nat :=
  if s.triple then tripleEnd? s.quote line
  else match literalEnd s.quote line with
    | .closed n => some n
    | _ => none

/-! ## One step within a line -/

/-- What one step reads. -/
structure Step where
  lexeme : Option Lexeme
  state : State
  /-- How many characters were read. -/
  used : Nat
  deriving Repr

/-- Blanks between lexemes. -/
def isSpacing (c : Char) : Bool := c = ' ' || c = '\x0c' || c = '\t'

/-- The depth behind an operator. -/
def depthAfter (depth : Int) (operator : Text) : Int :=
  if operator = ['('] || operator = ['['] || operator = ['{'] then depth + 1
  else if operator = [')'] || operator = [']'] || operator = ['}'] then depth - 1
  else depth

/-- Reads what has the shape `shape` and `n` characters; `t` is the line from there on. -/
def readShape (st : State) (pos : Nat) (t : Text) (shape : Shape) (n : Nat) : Step :=
  let lexeme (kind : LexemeKind) (n : Nat) : Option Lexeme := some ⟨kind, t.take n, pos⟩
  match shape with
  | .continuation => ⟨none, { st with continued := true }, n⟩
  | .comment => ⟨lexeme .comment n, st, n⟩
  | .number => ⟨lexeme .number n, st, n⟩
  | .lineEnd => ⟨lexeme (if 0 < st.depth then .lineBreak else .newline) n, st, n⟩
  | .operator => ⟨lexeme .operator n, { st with depth := depthAfter st.depth (t.take n) }, n⟩
  | .literal => ⟨lexeme .string n, st, n⟩
  | .openLiteral quote =>
    ⟨none, { st with openString := some ⟨pos, t, quote, false⟩, strict := true }, t.length⟩
  | .tripleOpening quote =>
    match tripleEnd? quote (t.drop n) with
    | some k => ⟨lexeme .string (n + k), st, n + k⟩
    | none => ⟨none, { st with openString := some ⟨pos, t, quote, true⟩ }, t.length⟩
  | .word =>
    ⟨lexeme (if t.head?.any isIdentifierStart then .name else .operator) n, st, n⟩

/-- One step at `pos`, where `t` is left of the line. Where no lexeme begins behind the blanks, the
first character, be it one of the blanks, is an error of its own. -/
def step (st : State) (pos : Nat) (t : Text) : Step :=
  let blanks := (t.takeWhile isSpacing).length
  match t.drop blanks with
  | [] => ⟨none, st, t.length⟩
  | c :: rest =>
    match shape? (c :: rest) with
    | some (shape, n) =>
      let s := readShape st (pos + blanks) (c :: rest) shape n
      { s with used := blanks + s.used }
    | none => ⟨some ⟨.error, t.take 1, pos⟩, st, 1⟩

/-! ## Lines -/

/-- The lexemes of what is left of a line, and the state behind it. -/
def restOfLine (st : State) (pos : Nat) (t : Text) : List Lexeme × State :=
  match t with
  | [] => ([], st)
  | c :: rest =>
    let s := step st pos (c :: rest)
    let used := max 1 s.used
    let (lexemes, st) := restOfLine s.state (pos + used) ((c :: rest).drop used)
    (s.lexeme.toList ++ lexemes, st)
termination_by t.length
decreasing_by simp only [List.length_drop, List.length_cons]; omega

/-- The width of an indentation: a blank counts one, a tab goes on to the next multiple of eight,
a form feed starts again. -/
def indentWidth (indentation : Text) : Nat :=
  indentation.foldl
    (fun width c => if c = ' ' then width + 1 else if c = '\t' then (width / 8 + 1) * 8 else 0) 0

/-- What a line leads to. -/
inductive Progress where
  | onward (lexemes : List Lexeme) (state : State)
  | finished
  | failed (failure : Failure)
  deriving Repr

/-- A line that is blank behind its indentation, or holds a comment only. -/
def commentLine (pos : Nat) (t : Text) : List Lexeme :=
  let isLineEnd (c : Char) : Bool := c = '\r' || c = '\n'
  let comment := (t.reverse.dropWhile isLineEnd).reverse
  if t.head? = some '#' then
    [⟨.comment, comment, pos⟩, ⟨.lineBreak, t.drop comment.length, pos + comment.length⟩]
  else [⟨.lineBreak, t, pos⟩]

/-- The lexemes for a change of indentation to `width`, and the open blocks behind it; none if the
width fits no open block. -/
def reindent? (indents : List Nat) (pos : Nat) (indentation : Text) :
    Option (List Lexeme × List Nat) :=
  let width := indentWidth indentation
  let top := indents.headD 0
  if top < width then some ([⟨.indent, indentation, pos⟩], width :: indents)
  else if width < top then
    if indents.contains width then
      let closed := (indents.takeWhile (width < ·)).length
      some (List.replicate closed ⟨.dedent, [], pos + indentation.length⟩, indents.drop closed)
    else none
  else some ([], indents)

/-- A line that begins a statement. A line of blanks alone has no line feed, so it is the last one,
and reading ends before it. -/
def newLine (st : State) (pos : Nat) (line : Text) : Progress :=
  let indentation := line.takeWhile isSpacing
  match line.drop indentation.length with
  | [] => .finished
  | c :: rest =>
    if c = '#' || c = '\r' || c = '\n' then
      .onward (commentLine (pos + indentation.length) (c :: rest)) st
    else
      match reindent? st.indents pos indentation with
      | none => .failed (.strayDedent pos indentation.length)
      | some (changes, indents) =>
        let (lexemes, st) := restOfLine { st with indents } (pos + indentation.length) (c :: rest)
        .onward (changes ++ lexemes) st

/-- Does a line end in a backslash before its line end? -/
def endsContinued (line : Text) : Bool :=
  ['\n', '\\'].isPrefixOf line.reverse || ['\n', '\r', '\\'].isPrefixOf line.reverse

/-- A line on which a string is still open. -/
def stringLine (st : State) (s : OpenString) (pos : Nat) (line : Text) : List Lexeme × State :=
  match s.close? line with
  | some n =>
    let (lexemes, st) :=
      restOfLine { st with openString := none, strict := false } (pos + n) (line.drop n)
    (⟨.string, s.text ++ line.take n, s.start⟩ :: lexemes, st)
  | none =>
    if st.strict && !endsContinued line then
      ([⟨.error, s.text ++ line, s.start⟩], { st with openString := none })
    else ([], { st with openString := some { s with text := s.text ++ line } })

/-- The line that begins at `pos`. -/
def lexLine (st : State) (pos : Nat) (line : Text) : Progress :=
  match st.openString with
  | some s =>
    let (lexemes, st) := stringLine st s pos line
    .onward lexemes st
  | none =>
    if st.depth = 0 ∧ st.continued = false then newLine st pos line
    else
      let (lexemes, st) := restOfLine { st with continued := false } pos line
      .onward lexemes st

/-! ## The whole source -/

def closeBlocks (st : State) (pos : Nat) : List Lexeme :=
  List.replicate (st.indents.length - 1) ⟨.dedent, [], pos⟩

/-- Does a last line lack the line end that a logical line needs? A comment needs none. -/
def lacksLineEnd (last : Text) : Bool :=
  match last.getLast? with
  | none => false
  | some c => c != '\r' && c != '\n' && (Text.trim isBlank last).head? != some '#'

/-- The end of the source, `last` being its last line. -/
def endOfSource (st : State) (pos : Nat) (last : Text) : Lexing :=
  match st.openString with
  | some s => ⟨[], some (.unclosedString s.start)⟩
  | none =>
    if st.depth = 0 ∧ st.continued = false then
      ⟨(if lacksLineEnd last then [⟨.newline, [], pos⟩] else []) ++ closeBlocks st pos, none⟩
    else ⟨[], some (.unclosedStatement pos)⟩

/-- The lexemes of the lines from `pos` on, `last` being the line before. -/
def lexLines (st : State) (pos : Nat) (last : Text) : List Text → Lexing
  | [] => endOfSource st pos last
  | line :: rest =>
    match lexLine st pos line with
    | .onward lexemes st => (lexLines st (pos + line.length) line rest).prepend lexemes
    | .finished => ⟨closeBlocks st pos, none⟩
    | .failed failure => ⟨[], some failure⟩

end Lexer

def lex (source : Text) : Lexing := Lexer.lexLines {} 0 [] source.lines

end Orthography
