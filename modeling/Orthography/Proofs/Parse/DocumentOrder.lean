/-
When the tokens of a source come out in the order of the source.

In the order of feeding they do: no token is empty, so each begins behind the one before it
(`Event.offsets_ofLexemes`). The tree keeps that order unless a logical line begins directly in a
stray block, and Python's own lexemes can bring that about. A literal of one line that a backslash
carries over the line end and that never closes is an error without a line end, so the logical line
stays open while the next line is indented. That indentation opens a block, and the block goes to
the line before.
-/
import Orthography.Proofs.Parse.Tiling
import Orthography.Proofs.Tree.FeedOrder

set_option autoImplicit false

namespace Orthography

/-! ## Tokens with text -/

/-- A token that the event feeds has text. -/
def Event.Solid : Event → Prop
  | .token _ text _ => text ≠ []
  | _ => True

theorem isAlpha_of_isQuote {c : Char} (h : Lexeme.isQuote c = true) : c.isAlpha = false := by
  rw [Lexeme.isQuote, Bool.or_eq_true, decide_eq_true_eq, decide_eq_true_eq] at h
  rcases h with rfl | rfl <;> rfl

namespace Lexeme

/-- Behind the letters of a literal its quote is left. -/
theorem solid_stringEvents {text : Text} (hquoted : text.any isQuote = true) (start : Nat) :
    ∀ e ∈ stringEvents text start, e.Solid := by
  obtain ⟨quote, hmem, hquote⟩ := List.any_eq_true.mp hquoted
  have hne : text ≠ [] := List.ne_nil_of_mem hmem
  -- were nothing left, the quote would be one of the letters
  have hrest : text.drop (text.takeWhile Char.isAlpha).length ≠ [] := by
    intro hnil
    have hle := List.drop_eq_nil_iff.mp hnil
    have hwhole : text.takeWhile Char.isAlpha = text :=
      (List.takeWhile_prefix _).eq_of_length_le hle
    have hletter := List.mem_takeWhile_imp (hwhole ▸ hmem)
    rw [isAlpha_of_isQuote hquote] at hletter
    simp at hletter
  simp only [stringEvents]
  by_cases hletters : (text.takeWhile Char.isAlpha).isEmpty = true
  · simpa [hletters, Event.Solid] using hne
  · rw [if_neg hletters]
    simp only [List.isEmpty_iff] at hletters
    intro e he
    rcases List.mem_cons.mp he with rfl | he
    · exact hletters
    · obtain rfl := List.mem_singleton.mp he
      exact hrest

theorem Solid.events {x : Lexeme} (h : x.Solid) : ∀ e ∈ x.events, e.Solid := by
  rw [Lexeme.events]
  cases hkind : x.kind with
  | string => exact solid_stringEvents (h.quoted hkind) x.start
  | error =>
    have htext := h.text (by simp [isLineEnd, hkind])
    by_cases hdollar : x.isDollar = true <;> simp [hdollar, Event.Solid, htext]
  | name | number | operator =>
    have htext := h.text (by simp [isLineEnd, hkind])
    simp [Event.Solid, htext]
  | comment | lineBreak | newline | indent | dedent => simp [Event.Solid]

end Lexeme

/-! ## Offsets in the order of feeding -/

namespace Event

/-- Tokens with text lie at growing offsets. Each piece of text begins where the one before it
ended, and a piece that is not empty moves that place on. -/
theorem offsets_of_covers {source : Text} {lo hi : Nat} {events : List Event}
    (h : Covers source lo hi (events.filterMap fragment?)) (hsolid : ∀ e ∈ events, e.Solid) :
    (events.filterMap tokenOffset?).Pairwise (· < ·)
      ∧ ∀ offset ∈ events.filterMap tokenOffset?, (lo : Int) ≤ offset ∧ offset ≤ hi := by
  induction events generalizing lo with
  | nil => exact ⟨List.Pairwise.nil, by simp⟩
  | cons e rest ih =>
    have hrest : ∀ d ∈ rest, d.Solid := fun d hd => hsolid d (List.mem_cons_of_mem _ hd)
    cases e with
    | token kind text offset =>
      have hstart : offset = lo := h.1
      have hbehind : Covers source (lo + text.length) hi (rest.filterMap fragment?) := h.2.2
      have hle := hbehind.le
      obtain ⟨hgrow, hbounds⟩ := ih hbehind hrest
      have hpos := List.length_pos_iff.mpr (hsolid _ List.mem_cons_self)
      -- the token has text, so what comes behind it begins at a greater offset
      refine ⟨List.pairwise_cons.mpr ⟨fun later hlater => ?_, hgrow⟩, fun other hother => ?_⟩
      · have := (hbounds later hlater).1
        omega
      · rcases List.mem_cons.mp hother with rfl | hother
        · omega
        · have := hbounds other hother
          omega
    | trivia kind text offset =>
      obtain ⟨hgrow, hbounds⟩ := ih h.2.2 hrest
      refine ⟨hgrow, fun other hother => ?_⟩
      have := hbounds other hother
      omega
    | endLine | startBlock | finishBlock | finish => exact ih h hrest

/-- So all tokens that are fed for a source have text, the end of the source apart. Tokens with text
have different offsets, which is what makes an order by offsets the order of the source. -/
theorem solid_ofLexemes (source : Text) {lexemes : List Lexeme}
    (h : ∀ x ∈ lexemes, x.isLayout = false → x.Solid) :
    ∀ e ∈ Event.ofLexemes source lexemes, e.Solid := by
  refine (Cursor.start source).forall_mem_events (by simp [Event.Solid]) (by simp [Event.Solid])
    (by simp [Event.Solid]) source.length ?_
  intro x hx e he
  cases hlayout : x.isLayout with
  | true =>
    -- a mark for indentation feeds no token
    have hnone := Lexeme.fragments_of_layout hlayout
    rw [List.filterMap_eq_nil_iff] at hnone
    have := hnone e he
    cases e <;> simp_all [Event.Solid, fragment?]
  | false => exact (h x hx hlayout).events e he

/-- The tokens of a source are fed with growing offsets, none of them behind its end. -/
theorem offsets_ofLexemes (source : Text) :
    ((Event.ofLexemes source (lex source).lexemes).filterMap tokenOffset?).Pairwise (· < ·)
      ∧ ∀ offset ∈ (Event.ofLexemes source (lex source).lexemes).filterMap tokenOffset?,
        offset ≤ source.length := by
  obtain ⟨hgrow, hbounds⟩ := offsets_of_covers (Event.covers_ofLexemes (lex_spelling source))
    (solid_ofLexemes source (lex_solid source))
  exact ⟨hgrow, fun offset hoffset => (hbounds offset hoffset).2⟩

end Event

/-! ## Offsets in document order -/

/-- **Document order.** The tokens of a source come out in the order of the source exactly if no
logical line begins directly in a stray block. -/
theorem parse_offsets_pairwise_iff (source : Text) (filePath : String) :
    ((parse source filePath).tree.descendants.map (·.offset)).Pairwise (· ≤ ·)
      ↔ Layout.strayed {} (Event.ofLexemes source (lex source).lexemes) = false := by
  obtain ⟨hgrow, hend⟩ := Event.offsets_ofLexemes source
  exact Event.offsets_run_pairwise_iff hgrow hend source

/-- The literal on the second line is never closed, and `z` comes out before it. -/
theorem parse_offsets_stray_block :
    ¬ ((parse "a\n'\\\n\n y\n z\n".toList "m.py").tree.descendants.map (·.offset)).Pairwise
      (· ≤ ·) := by
  have hoffsets : (parse "a\n'\\\n\n y\n z\n".toList "m.py").tree.descendants.map (·.offset)
      = [0, 10, 2, 7, 12] := by decide +kernel
  rw [hoffsets]
  decide

end Orthography
