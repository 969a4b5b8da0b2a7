/-
The conversion of lexemes to events, one lexeme at a time.

A lexeme that is no mark for indentation has three fates (`Cursor.feed_cases`): it is the name of
the dollar sign that is held, it is left out, or it makes its own events behind those for what comes
before it. All that is proved of the events of a source goes by these cases.
-/
import Orthography.Parse.Events
import Orthography.Proofs.Lexeme.Spelling
import Orthography.Proofs.Tree.Conservation

set_option autoImplicit false

namespace Orthography

namespace Lexeme

/-! ## Kinds of lexemes -/

theorem kind_of_isBlankError {x : Lexeme} (h : x.isBlankError = true) : x.kind = .error := by
  rw [isBlankError, Bool.and_eq_true, decide_eq_true_eq] at h
  exact h.1

/-- A dollar sign is an error lexeme of its own, with nothing but its place left open. -/
theorem eq_of_isDollar {x : Lexeme} (h : x.isDollar = true) : x = ⟨.error, ['$'], x.start⟩ := by
  rw [isDollar, Bool.and_eq_true, decide_eq_true_eq, decide_eq_true_eq] at h
  obtain ⟨kind, text, start⟩ := x
  obtain ⟨rfl, rfl⟩ := h
  rfl

theorem of_names {x : Lexeme} {dollar : Nat} (h : x.names dollar = true) :
    x.kind = .name ∧ x.start = dollar + 1 := by
  rwa [names, Bool.and_eq_true, decide_eq_true_eq, decide_eq_true_eq] at h

theorem isDollar_of_isBlankError {x : Lexeme} (h : x.isBlankError = true) :
    x.isDollar = false := by
  rw [isBlankError, Bool.and_eq_true] at h
  rw [isDollar, Bool.and_eq_false_iff]
  refine Or.inr (decide_eq_false fun htext => ?_)
  rw [htext] at h
  exact absurd h.2 (by decide)

/-- The letters before a literal, and what is left of it. -/
theorem stringEvents_eq (text : Text) (start : Nat) :
    stringEvents text start
      = (if (text.takeWhile Char.isAlpha).isEmpty then []
          else [.token .stringDelimiter (text.takeWhile Char.isAlpha) start])
        ++ [.token .stringLiteral (text.dropWhile Char.isAlpha)
          (start + (text.takeWhile Char.isAlpha).length : Nat)] := by
  -- the conversion counts the letters where the statement drops them
  have hdrop : text.drop (text.takeWhile Char.isAlpha).length = text.dropWhile Char.isAlpha := by
    have hsplit : text.takeWhile Char.isAlpha ++ text.dropWhile Char.isAlpha = text :=
      List.takeWhile_append_dropWhile
    have hleft := congrArg (List.drop (text.takeWhile Char.isAlpha).length) hsplit
    rw [← hleft, List.drop_left]
  simp only [stringEvents]
  by_cases hletters : (text.takeWhile Char.isAlpha).isEmpty = true
  · have hnone := List.isEmpty_iff.mp hletters
    rw [if_pos hletters, if_pos hletters, ← hdrop, hnone]
    rfl
  · rw [if_neg hletters, if_neg hletters, hdrop]
    rfl

theorem finish_notMem_events (x : Lexeme) : .finish ∉ x.events := by
  rw [events]
  cases x.kind with
  | string =>
    rw [stringEvents_eq]
    split <;> simp
  | error => by_cases hdollar : x.isDollar = true <;> simp [hdollar]
  | _ => simp

end Lexeme

namespace Cursor

/-! ## One lexeme -/

/-- Marks for indentation go to the builder as they are and leave the cursor where it is. -/
theorem feed_of_layout (c : Cursor) {x : Lexeme} (hlayout : x.isLayout = true) :
    c.feed x = (x.events, c) := by
  rw [feed]
  cases hkind : x.kind <;> simp_all [Lexeme.isLayout]

/-- What becomes of any other lexeme: a dollar sign takes it as its name, or it is left out, or it
makes its own events behind those for what comes before it. -/
theorem feed_cases (c : Cursor) {x : Lexeme} (hlayout : x.isLayout = false) :
    (∃ dollar, c.dollar = some dollar ∧ x.names dollar = true
      ∧ c.feed x = ([.token .dollarIdentifier ('$' :: x.text) dollar],
          { c.advance x.stop with dollar := none }))
    ∨ (c.dollar.filter x.names = none ∧ x.isBlankError = true ∧ c.feed x = c.flush)
    ∨ (c.dollar.filter x.names = none ∧ x.isBlankError = false
      ∧ c.feed x = (c.flush.1 ++ c.flush.2.gap x.start ++ x.events,
          { c.flush.2.advance x.stop with
            dollar := if x.isDollar then some x.start else none })) := by
  -- all other kinds are fed alike
  have hfeed : c.feed x = (c.dollar.filter x.names).elim
      (if x.isBlankError then c.flush
        else
          (c.flush.1 ++ c.flush.2.gap x.start ++ x.events,
            { c.flush.2.advance x.stop with
              dollar := if x.isDollar then some x.start else none }))
      fun dollar =>
        ([.token .dollarIdentifier ('$' :: x.text) dollar],
          { c.advance x.stop with dollar := none }) := by
    rw [feed]
    cases hkind : x.kind with
    | indent | dedent => simp [Lexeme.isLayout, hkind] at hlayout
    | _ => cases c.dollar.filter x.names <;> rfl
  rw [hfeed]
  cases hnames : c.dollar.filter x.names with
  | some dollar =>
    obtain ⟨hdollar, hx⟩ := Option.filter_eq_some_iff.mp hnames
    exact Or.inl ⟨dollar, hdollar, hx, rfl⟩
  | none =>
    cases hblank : x.isBlankError with
    | true => exact Or.inr (Or.inl ⟨rfl, rfl, rfl⟩)
    | false => exact Or.inr (Or.inr ⟨rfl, rfl, rfl⟩)

/-! ## All lexemes

What holds of every event that the cursor can make holds of the events of a source. -/

section Every

variable {P : Event → Prop}

/-- What holds of a dollar sign by itself holds of whatever a cursor has kept back. -/
theorem forall_mem_flush (hdollar : ∀ offset, P (.token .unknown ['$'] offset)) (c : Cursor) :
    ∀ e ∈ c.flush.1, P e := by
  rw [flush]
  split
  · simp [hdollar]
  · simp

theorem forall_mem_gap (hgap : ∀ text offset, P (.trivia .whitespace text offset)) (c : Cursor)
    (offset : Nat) : ∀ e ∈ c.gap offset, P e := by
  rw [gap]
  split
  · simp [hgap]
  · simp

/-- All else comes from a lexeme, by itself or as the name of a dollar sign. A property of events is
thereby checked on four kinds of events, and holds of the whole conversion. -/
theorem forall_mem_events (hgap : ∀ text offset, P (.trivia .whitespace text offset))
    (hdollar : ∀ offset, P (.token .unknown ['$'] offset))
    (hname : ∀ text offset, P (.token .dollarIdentifier ('$' :: text) offset)) (c : Cursor)
    (length : Nat) {lexemes : List Lexeme} (hown : ∀ x ∈ lexemes, ∀ e ∈ x.events, P e) :
    ∀ e ∈ c.events length lexemes, P e := by
  induction lexemes generalizing c with
  | nil =>
    intro e he
    rcases List.mem_append.mp he with he | he
    · exact forall_mem_flush hdollar c e he
    · exact forall_mem_gap hgap _ length e he
  | cons x rest ih =>
    intro e he
    rw [events, List.mem_append] at he
    rcases he with he | he
    · have hx := hown x List.mem_cons_self
      cases hlayout : x.isLayout with
      | true =>
        rw [c.feed_of_layout hlayout] at he
        exact hx e he
      | false =>
        -- the name of a dollar sign, a dollar sign that waits for one, or anything else
        rcases c.feed_cases hlayout with ⟨d, -, -, hfeed⟩ | ⟨-, -, hfeed⟩ | ⟨-, -, hfeed⟩
        · rw [hfeed] at he
          obtain rfl := List.mem_singleton.mp he
          exact hname x.text d
        · rw [hfeed] at he
          exact forall_mem_flush hdollar c e he
        · rw [hfeed, List.mem_append, List.mem_append] at he
          rcases he with (he | he) | he
          · exact forall_mem_flush hdollar c e he
          · exact forall_mem_gap hgap _ x.start e he
          · exact hx e he
    · exact ih _ (fun y hy => hown y (List.mem_cons_of_mem _ hy)) e he

end Every

theorem finish_notMem_events (c : Cursor) (length : Nat) (lexemes : List Lexeme) :
    .finish ∉ c.events length lexemes := by
  intro hmem
  refine c.forall_mem_events (P := (· ≠ .finish)) (by simp) (by simp) (by simp) length ?_ _ hmem rfl
  intro x _ e he heq
  subst heq
  exact x.finish_notMem_events he

end Cursor

/-- The tree of lexemes holds what they feed, and the end of the source. -/
theorem Tree.pieces_ofLexemes_perm (source : Text) (lexemes : List Lexeme) :
    ((Tree.ofLexemes source lexemes).descendants.flatMap Token.pieces).Perm
      ((Event.ofLexemes source lexemes).filter Event.isPiece
        ++ [.token .eof [] source.length]) :=
  Event.pieces_run_perm ((Cursor.start source).finish_notMem_events source.length lexemes) source
    source.length

end Orthography
