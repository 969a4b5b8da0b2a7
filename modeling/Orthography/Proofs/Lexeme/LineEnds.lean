/-
Line feeds in line ends.

A lexeme that stands for a line end holds the line feed of its line. The last line of a source may
lack one, and then the line end is empty or a carriage return; but no comment follows it. Main
statement: `lex_feeds`.
-/
import Orthography.Proofs.Lexeme.Spelling
import Orthography.Proofs.Text.Lines

set_option autoImplicit false

namespace Orthography

namespace Lexeme

/-- A line end holds a line feed. -/
def Feeds (x : Lexeme) : Prop := x.isLineEnd = true → '\n' ∈ x.text

theorem feeds_of_isLineEnd {x : Lexeme} (h : x.isLineEnd = false) : x.Feeds := by
  intro hend
  simp [h] at hend

end Lexeme

namespace Lexer

open Lexeme

variable {st st' : State} {pos : Nat} {t line : Text} {lexemes : List Lexeme}

/-! ## Steps -/

/-- A line end that stands in the text holds a line feed, be it one character or two. -/
theorem mem_take_lineEndLength? {n : Nat} (h : lineEndLength? t = some n) : '\n' ∈ t.take n := by
  unfold lineEndLength? at h
  split at h
  · cases h
    simp
  · cases h
    simp
  · cases h

theorem feeds_readShape {shape : Shape} {n : Nat} (h : Stands t n shape) :
    ∀ x ∈ (readShape st pos t shape n).lexeme, x.Feeds := by
  intro x hx
  unfold readShape at hx
  cases shape with
  | lineEnd =>
    obtain rfl := Option.some.inj hx
    exact fun _ => mem_take_lineEndLength? h
  | tripleOpening quote =>
    apply feeds_of_isLineEnd
    dsimp only at hx
    split at hx
    · obtain rfl := Option.some.inj hx
      rfl
    · cases hx
  | word =>
    apply feeds_of_isLineEnd
    obtain rfl := Option.some.inj hx
    unfold isLineEnd
    split <;> rfl
  | continuation | openLiteral quote => cases hx
  | comment | number | operator | literal =>
    apply feeds_of_isLineEnd
    obtain rfl := Option.some.inj hx
    rfl

theorem feeds_step : ∀ x ∈ (step st pos t).lexeme, x.Feeds := by
  unfold step
  dsimp only
  split
  · simp
  · split
    · next shape n hshape => exact feeds_readShape (stands_of_shape? hshape)
    · intro x hx
      obtain rfl := Option.some.inj hx
      exact feeds_of_isLineEnd rfl

theorem feeds_restOfLine (st : State) (pos : Nat) (t : Text) :
    ∀ x ∈ (restOfLine st pos t).1, x.Feeds := by
  fun_induction restOfLine st pos t with
  | case1 => simp
  | case2 st pos c rest s used lexemes st' hrest ih =>
    intro x hx
    rcases List.mem_append.mp hx with hx | hx
    · exact feeds_step x (Option.mem_toList.mp hx)
    · apply ih
      rw [hrest]
      exact hx

/-! ## Lines -/

/-- A comment or an empty line, where the line has a line feed. Its line end is what stands behind
the comment, and that is not empty then. -/
theorem feeds_commentLine (ht : t.getLast? = some '\n') : ∀ x ∈ commentLine pos t, x.Feeds := by
  obtain ⟨init, rfl⟩ := List.getLast?_eq_some_iff.mp ht
  unfold commentLine
  dsimp only
  split
  · intro x hx
    rcases List.mem_cons.mp hx with rfl | hx
    · exact feeds_of_isLineEnd rfl
    · obtain rfl := List.mem_singleton.mp hx
      intro _
      -- the comment ends before the line feed
      have hcomment : (((init ++ ['\n']).reverse.dropWhile
          fun c => decide (c = '\r') || decide (c = '\n')).reverse).length ≤ init.length := by
        rw [List.length_reverse, List.reverse_append]
        have hsuffix := List.dropWhile_suffix (l := init.reverse)
          fun c => decide (c = '\r') || decide (c = '\n')
        have hle := hsuffix.length_le
        rw [List.length_reverse] at hle
        simpa using hle
      rw [List.drop_append_of_le_length hcomment]
      simp
  · intro x hx
    obtain rfl := List.mem_singleton.mp hx
    intro _
    simp

/-- Nothing follows the line end of a comment. -/
theorem pairwise_commentLine (pos : Nat) (t : Text) :
    (commentLine pos t).Pairwise fun y z => z.kind = .comment → y.Feeds := by
  unfold commentLine
  dsimp only
  split
  · simp
  · simp

theorem feeds_stringLine {s : OpenString} : ∀ x ∈ (stringLine st s pos line).1, x.Feeds := by
  unfold stringLine
  split
  · next n _ =>
    intro x hx
    rcases List.mem_cons.mp hx with rfl | hx
    · exact feeds_of_isLineEnd rfl
    · exact feeds_restOfLine _ _ _ x hx
  · split
    · intro x hx
      obtain rfl := List.mem_singleton.mp hx
      exact feeds_of_isLineEnd rfl
    · simp

/-- The lexemes of a line hold line feeds for its ends, or they are those of a comment line. The
comment line is apart because its line end is made up where the source ends without one. -/
theorem feeds_lexLine (h : lexLine st pos line = .onward lexemes st') :
    (∀ x ∈ lexemes, x.Feeds) ∨ ∃ p t, t ≠ [] ∧ t <:+ line ∧ lexemes = commentLine p t := by
  unfold lexLine at h
  split at h
  · cases h
    exact Or.inl feeds_stringLine
  · split at h
    · unfold newLine at h
      dsimp only at h
      split at h
      · cases h
      · next c rest hdrop =>
        split at h
        · cases h
          exact Or.inr ⟨_, c :: rest, by simp, hdrop ▸ List.drop_suffix _ line, rfl⟩
        · split at h
          · cases h
          · next changes indents hchanges =>
            cases h
            left
            intro x hx
            rcases List.mem_append.mp hx with hx | hx
            -- marks for indentation are no line ends, so nothing is asked of them
            · apply feeds_of_isLineEnd
              have hlayout := isLayout_of_reindent? hchanges x hx
              rw [Bool.eq_false_iff]
              intro hend
              rw [isLayout_of_isLineEnd hend] at hlayout
              cases hlayout
            · exact feeds_restOfLine _ _ _ x hx
    · cases h
      exact Or.inl (feeds_restOfLine _ _ _)

theorem feeds_lexLine_of_getLast? (h : lexLine st pos line = .onward lexemes st')
    (hline : line.getLast? = some '\n') : ∀ x ∈ lexemes, x.Feeds := by
  rcases feeds_lexLine h with hall | ⟨p, t, hne, hsuffix, rfl⟩
  · exact hall
  · apply feeds_commentLine
    obtain ⟨before, rfl⟩ := hsuffix
    rwa [List.getLast?_append_of_ne_nil _ hne] at hline

/-- Within a line, a line end that a comment follows holds a line feed, for want of a comment behind
it. -/
theorem pairwise_lexLine (h : lexLine st pos line = .onward lexemes st') :
    lexemes.Pairwise fun y z => z.kind = .comment → y.Feeds := by
  rcases feeds_lexLine h with hall | ⟨p, t, -, -, rfl⟩
  · exact List.pairwise_of_forall_mem_list fun y hy _ _ _ => hall y hy
  · exact pairwise_commentLine p t

/-! ## The whole source -/

/-- The blocks that are open at the end are closed by dedents and nothing else. -/
theorem kind_of_mem_closeBlocks : ∀ z ∈ closeBlocks st pos, z.kind = .dedent := by
  intro z hz
  rw [List.eq_of_mem_replicate hz]

/-- No comment stands at the end of the source, behind its last line: what is added there are a line
end, dedents and the end itself. -/
theorem kind_of_mem_endOfSource {last : Text} :
    ∀ z ∈ (endOfSource st pos last).lexemes, z.kind ≠ .comment := by
  unfold endOfSource
  split
  · simp
  · split
    · intro z hz
      rcases List.mem_append.mp hz with hz | hz
      · split at hz
        · simp [List.mem_singleton.mp hz]
        · cases hz
      · simp [kind_of_mem_closeBlocks z hz]
    · simp

theorem pairwise_of_kind {lexemes : List Lexeme} (h : ∀ z ∈ lexemes, z.kind ≠ .comment) :
    lexemes.Pairwise fun y z => z.kind = .comment → y.Feeds :=
  List.pairwise_of_forall_mem_list fun _ _ z hz hkind => absurd hkind (h z hz)

/-- All lines. A line that others follow has a line feed, so its own line ends do; and the last line
is followed by no comment. -/
theorem pairwise_lexLines {lines : List Text} {source : Text} (hlines : source.lines = lines)
    (last : Text) :
    (lexLines st pos last lines).lexemes.Pairwise fun y z => z.kind = .comment → y.Feeds := by
  induction lines generalizing st pos last source with
  | nil => exact pairwise_of_kind kind_of_mem_endOfSource
  | cons line rest ih =>
    obtain ⟨-, -, hends, hrest⟩ := Text.lines_eq_cons hlines
    unfold lexLines
    split
    · next lexemes st' hline =>
      refine List.pairwise_append.mpr ⟨pairwise_lexLine hline, ih hrest line, ?_⟩
      intro y hy z hz hkind
      cases rest with
      | nil => exact absurd hkind (kind_of_mem_endOfSource z hz)
      | cons next more => exact feeds_lexLine_of_getLast? hline (hends (by simp)) y hy
    · apply pairwise_of_kind
      intro z hz
      simp [kind_of_mem_closeBlocks z hz]
    · exact List.Pairwise.nil

end Lexer

/-- **A line end that a comment follows holds a line feed.** Only the end of the source gives line
ends without one, and behind it there is no comment. -/
theorem lex_feeds (source : Text) :
    (lex source).lexemes.Pairwise fun y z => z.kind = .comment → y.Feeds :=
  Lexer.pairwise_lexLines rfl []

end Orthography
