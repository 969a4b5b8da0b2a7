/-
The tokens of a source, as a rewriting of its lexemes.

The conversion holds a dollar sign back until the next lexeme tells what becomes of it, and marks
for indentation do not count as lexemes there. `Lexeme.rewriting` says the same by looking one
lexeme ahead in what is left without those marks. Main statement, `Event.tokens_ofLexemes`: the
tokens fed to the builder are that rewriting, whatever the lexemes are.

The induction is on the lexemes, with a cursor that may hold a dollar sign. A dollar sign that is
held is one more lexeme before those to come (`Cursor.held`).
-/
import Orthography.Proofs.Parse.Conversion
import Orthography.Proofs.Tree.FeedOrder

set_option autoImplicit false

namespace Orthography

namespace Lexeme

/-! ## The rewriting -/

/-- The tokens that a lexeme makes by itself. -/
def tokens (x : Lexeme) : List Event :=
  match x.kind with
  | .name => [.token (if keywords.contains x.text then .keyword else .identifier) x.text x.start]
  | .number => [.token .number x.text x.start]
  | .operator => [.token .operator x.text x.start]
  | .string =>
    let letters := x.text.takeWhile Char.isAlpha
    let literal := x.text.dropWhile Char.isAlpha
    (if letters.isEmpty then [] else [.token .stringDelimiter letters x.start])
      ++ [.token .stringLiteral literal (x.start + letters.length : Nat)]
  | .error => if x.isBlankError then [] else [.token .unknown x.text x.start]
  | .comment | .lineBreak | .newline | .indent | .dedent => []

/-- The tokens of lexemes among which there is no mark for indentation. -/
def rewriting : List Lexeme → List Event
  | [] => []
  | [x] => x.tokens
  | x :: y :: rest =>
    if x.isDollar && y.names x.start then
      .token .dollarIdentifier ('$' :: y.text) x.start :: rewriting rest
    else x.tokens ++ rewriting (y :: rest)

/-- Two lexemes are rewritten to one token if the first is a dollar sign and the second a name right
behind it; else the first stands for itself. -/
theorem rewriting_cons_cons (x y : Lexeme) (rest : List Lexeme) :
    rewriting (x :: y :: rest)
      = if x.isDollar && y.names x.start then
          .token .dollarIdentifier ('$' :: y.text) x.start :: rewriting rest
        else x.tokens ++ rewriting (y :: rest) := by
  rw [rewriting]

/-- Only a dollar sign looks ahead. -/
theorem rewriting_cons {x : Lexeme} (h : x.isDollar = false) (rest : List Lexeme) :
    rewriting (x :: rest) = x.tokens ++ rewriting rest := by
  cases rest with
  | nil => rw [rewriting, rewriting, List.append_nil]
  | cons y rest => rw [rewriting_cons_cons, h, Bool.false_and, if_neg Bool.false_ne_true]

/-- A lexeme's own events feed its tokens, unless it is left out or held back. -/
theorem filter_isToken_events {x : Lexeme} (hblank : x.isBlankError = false)
    (hdollar : x.isDollar = false) : x.events.filter Event.isToken = x.tokens := by
  rw [events, tokens]
  cases hkind : x.kind with
  | string =>
    simp only [stringEvents_eq]
    split <;> rfl
  | error =>
    simp only [hdollar, hblank]
    rfl
  | comment | lineBreak | newline | name | number | operator | indent | dedent => rfl

theorem tokens_of_isBlankError {x : Lexeme} (h : x.isBlankError = true) : x.tokens = [] := by
  rw [tokens, kind_of_isBlankError h]
  exact if_pos h

theorem filter_isToken_of_layout (x : Lexeme) (hlayout : x.isLayout = true) :
    x.events.filter Event.isToken = [] := by
  rw [events]
  cases hkind : x.kind with
  | indent | dedent => rfl
  | _ => simp [isLayout, hkind] at hlayout

end Lexeme

namespace Cursor

open Lexeme

/-- The dollar sign that is held, as a lexeme. -/
def held (c : Cursor) : List Lexeme :=
  match c.dollar with
  | some offset => [⟨.error, ['$'], offset⟩]
  | none => []

theorem filter_isToken_gap (c : Cursor) (offset : Nat) :
    (c.gap offset).filter Event.isToken = [] := by
  rw [gap]
  split <;> rfl

/-- A dollar sign that gets no name is a token of its own. -/
theorem filter_isToken_flush (c : Cursor) :
    c.flush.1.filter Event.isToken = rewriting c.held ∧ c.flush.2.dollar = none := by
  rw [flush, held]
  cases hdollar : c.dollar with
  | none => exact ⟨rfl, hdollar⟩
  | some offset => exact ⟨rfl, rfl⟩

/-- A held dollar sign with no name behind it does not look further. -/
theorem rewriting_held_append {c : Cursor} {x : Lexeme} (h : c.dollar.filter x.names = none)
    (rest : List Lexeme) :
    rewriting (c.held ++ x :: rest) = rewriting c.held ++ rewriting (x :: rest) := by
  rw [held]
  cases hdollar : c.dollar with
  | none => rfl
  | some offset =>
    have hnames : x.names offset = false := by simpa [hdollar, Option.filter] using h
    simp only [List.cons_append, List.nil_append]
    rw [rewriting_cons_cons, hnames, Bool.and_false, if_neg Bool.false_ne_true]
    rfl

/-- **One lexeme.** Its tokens and the rewriting of what the cursor holds behind it are the
rewriting of what the cursor held and the lexeme. -/
theorem filter_isToken_feed (c : Cursor) {x : Lexeme} (hlayout : x.isLayout = false)
    (rest : List Lexeme) :
    (c.feed x).1.filter Event.isToken ++ rewriting ((c.feed x).2.held ++ rest)
      = rewriting (c.held ++ x :: rest) := by
  obtain ⟨hflush, hdropped⟩ := c.filter_isToken_flush
  rcases c.feed_cases hlayout with ⟨d, hdollar, hnames, hfeed⟩ | ⟨hnot, hblank, hfeed⟩
    | ⟨hnot, hblank, hfeed⟩
  · -- the name of the dollar sign
    have hheld : c.held = [⟨.error, ['$'], d⟩] := by rw [held, hdollar]
    rw [hfeed, hheld, List.singleton_append, rewriting_cons_cons, hnames]
    rfl
  · -- left out
    have hheld : c.flush.2.held = [] := by rw [held, hdropped]
    rw [hfeed, hflush, hheld, rewriting_held_append hnot,
      rewriting_cons (isDollar_of_isBlankError hblank), tokens_of_isBlankError hblank]
    rfl
  · rw [hfeed, rewriting_held_append hnot]
    simp only [List.filter_append, hflush, filter_isToken_gap, List.append_nil]
    rw [List.append_assoc]
    congr 1
    cases hdollar : x.isDollar with
    | false =>
      rw [Lexeme.filter_isToken_events hblank hdollar, rewriting_cons hdollar]
      rfl
    | true =>
      -- held back, to be looked at with what comes next
      have hx := eq_of_isDollar hdollar
      have hown : x.events.filter Event.isToken = [] := by
        rw [hx]
        rfl
      rw [hown, List.nil_append]
      conv_rhs => rw [hx]
      rfl

/-- **All lexemes.** From any cursor on, the tokens fed are the rewriting of the lexemes to come,
with the dollar sign that is held before them. -/
theorem filter_isToken_events (c : Cursor) (length : Nat) (lexemes : List Lexeme) :
    (c.events length lexemes).filter Event.isToken
      = rewriting (c.held ++ lexemes.filter (!·.isLayout)) := by
  induction lexemes generalizing c with
  | nil =>
    rw [events, close, List.filter_append, c.filter_isToken_flush.1, filter_isToken_gap]
    simp
  | cons x rest ih =>
    rw [events, List.filter_append, ih]
    cases hlayout : x.isLayout with
    | true =>
      rw [c.feed_of_layout hlayout, x.filter_isToken_of_layout hlayout,
        List.filter_cons_of_neg (by simp [hlayout])]
      rfl
    | false =>
      rw [List.filter_cons_of_pos (by simp [hlayout])]
      exact c.filter_isToken_feed hlayout _

end Cursor

/-- The tokens fed for a source are the rewriting of its lexemes. -/
theorem Event.tokens_ofLexemes (source : Text) (lexemes : List Lexeme) :
    (Event.ofLexemes source lexemes).filter Event.isToken
      = Lexeme.rewriting (lexemes.filter (!·.isLayout)) :=
  (Cursor.start source).filter_isToken_events source.length lexemes

end Orthography
