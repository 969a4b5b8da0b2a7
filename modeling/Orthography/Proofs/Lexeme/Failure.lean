/-
Why reading a source fails, and where.

There are three ways to fail, and each is a fact about the source and the lexemes read so far
(`Failure.Explained`): the source ends in a string that none of its lines closes, it ends with
brackets open or behind a backslash, or a line is indented less than the line before but to the
width of no open block. Main statement, `lex_failure`: a failure is explained, and all lexemes end
before the place at which it is shown.

What carries over from line to line are facts about the lexemes behind which a state stands
(`Told`): brackets and blocks are those that the lexemes open and do not close, a backslash ends the
last line, and an open string has been open in each of its lines. Within a line the same is said of
a step and of the rest of the line (`Carries`).
-/
import Orthography.Proofs.Lexeme.Spelling
import Orthography.Proofs.Text.Lines

set_option autoImplicit false

namespace Orthography

namespace Lexer

open Lexeme

/-! ## What lexemes leave open -/

/-- The depth of brackets behind one more lexeme. -/
def depthBehind (depth : Int) (x : Lexeme) : Int :=
  if x.kind = .operator then depthAfter depth x.text else depth

/-- The brackets that lexemes open, less those that they close. -/
def openDepth (lexemes : List Lexeme) : Int := lexemes.foldl depthBehind 0

/-- The widths of the open blocks behind one more lexeme. -/
def widthsBehind (widths : List Nat) (x : Lexeme) : List Nat :=
  match x.kind with
  | .indent => indentWidth x.text :: widths
  | .dedent => widths.tail
  | _ => widths

/-- The widths of the blocks that are open behind lexemes, the innermost first. -/
def openWidths (lexemes : List Lexeme) : List Nat := lexemes.foldl widthsBehind [0]

/-- How many quotes open the string. -/
def OpenString.width (s : OpenString) : Nat := if s.triple then 3 else 1

/-- The string begins with some letters and its quotes, and no line of it closes it. With one quote
on either side each line ends in a backslash. -/
structure OpenString.Unclosed (s : OpenString) (letters : Nat) : Prop where
  quote : quoteAt? s.text = some (letters, s.quote)
  triple : s.triple = true → [s.quote, s.quote, s.quote] <+: s.text.drop letters
  unclosed : ∀ line ∈ Text.lines (s.text.drop (letters + s.width)),
    s.close? line = none ∧ (s.triple = false → endsContinued line = true)

/-- A line that begins at `lineStart` has `indent` blanks before its first other character, which
begins a statement. The line before is indented more, and no open block is indented so much. -/
structure StrayIndentation (source : Text) (lexemes : List Lexeme) (lineStart indent : Nat) :
    Prop where
  begins : source.BeginsLine lineStart
  blanks : ∀ c ∈ source.slice lineStart (lineStart + indent), isSpacing c = true
  /-- The first character behind the blanks begins no comment and ends no line. -/
  first : ∃ c ∈ source[lineStart + indent]?, isSpacing c = false ∧ c ≠ '#' ∧ c ≠ '\r' ∧ c ≠ '\n'
  /-- All brackets are closed. -/
  closed : openDepth lexemes = 0
  less : indentWidth (source.slice lineStart (lineStart + indent)) < (openWidths lexemes).headD 0
  stray : indentWidth (source.slice lineStart (lineStart + indent)) ∉ openWidths lexemes
  /-- So there are blanks. -/
  pos : 0 < indent

end Lexer

open Lexer in
/-- What a failure says of the source and of the lexemes before it. -/
def Failure.Explained (source : Text) (lexemes : List Lexeme) : Failure → Prop
  | .unclosedString start =>
    ∃ (s : OpenString) (letters : Nat), s.start = start ∧ s.text = source.drop start
      ∧ s.Unclosed letters
  | .unclosedStatement length =>
    length = source.length ∧ (openDepth lexemes ≠ 0 ∨ endsContinued source = true)
  | .strayDedent lineStart indent => StrayIndentation source lexemes lineStart indent

namespace Lexer

open Lexeme

variable {source t line last : Text} {pos lo : Nat} {st st' mid : State}
  {lexemes more done : List Lexeme}

/-! ## Ends of lines -/

/-- A line is continued by a backslash right before its line feed, or before the two characters of a
line end. -/
theorem endsContinued_iff :
    endsContinued t = true ↔ ['\\', '\n'] <:+ t ∨ ['\\', '\r', '\n'] <:+ t := by
  rw [endsContinued, Bool.or_eq_true, List.isPrefixOf_iff_prefix, List.isPrefixOf_iff_prefix,
    ← List.reverse_suffix, ← List.reverse_suffix, List.reverse_reverse]
  rfl

/-- Whether a line is continued shows in its end, so what is read of the end of a line tells. -/
theorem endsContinued_of_suffix {part : Text} (h : endsContinued part = true)
    (hpart : part <:+ t) : endsContinued t = true := by
  rw [endsContinued_iff] at h ⊢
  exact h.imp (·.trans hpart) (·.trans hpart)

/-- A backslash before a line end is the end of its line: the line end is the only one there is, so
nothing stands behind it. -/
theorem endsContinued_of_lineEnd {rest : Text} {n : Nat} (hone : Text.OneLine ('\\' :: rest))
    (h : lineEndLength? rest = some n) :
    endsContinued ('\\' :: rest) = true ∧ rest.drop n = [] := by
  unfold lineEndLength? at h
  split at h
  · next behind =>
    obtain rfl := Text.OneLine.eq_nil ['\\'] hone
    cases h
    exact ⟨rfl, rfl⟩
  · next behind =>
    obtain rfl := Text.OneLine.eq_nil ['\\', '\r'] hone
    cases h
    exact ⟨rfl, rfl⟩
  · cases h

/-- That a literal goes on behind its line does not depend on where it began. -/
theorem shift_eq_continued {k n : Nat} {e : LiteralEnd} (h : e.shift k = .continued n) :
    ∃ m, e = .continued m := by
  cases e with
  | closed m => cases h
  | continued m => exact ⟨m, rfl⟩
  | unclosed => cases h

/-- A literal that goes on behind its line takes the line to its end. The search for the closing
quote passes over a backslash with the character behind it, so it can leave the line only by a
backslash before the line end. -/
theorem endsContinued_of_literalEnd {quote : Char} {n : Nat} (hone : t.OneLine)
    (h : literalEnd quote t = .continued n) : endsContinued t = true := by
  fun_induction literalEnd quote t generalizing n with
  | case1 => cases h
  | case2 => cases h
  | case3 => cases h
  | case4 => cases h
  | case5 rest => exact (endsContinued_of_lineEnd hone rfl).1
  | case6 d rest _ hcr =>
    rw [Bool.and_eq_true, decide_eq_true_eq, decide_eq_true_eq] at hcr
    obtain ⟨rfl, hhead⟩ := hcr
    obtain ⟨behind, rfl⟩ := List.head?_eq_some_iff.mp hhead
    exact (endsContinued_of_lineEnd hone rfl).1
  | case7 d rest _ _ _ ih =>
    obtain ⟨m, hm⟩ := shift_eq_continued h
    have hpart : rest <:+ '\\' :: d :: rest := List.suffix_append ['\\', d] rest
    exact endsContinued_of_suffix (ih (hone.of_suffix hpart) hm) hpart
  | case8 => cases h
  | case9 c d rest _ _ _ ih =>
    obtain ⟨m, hm⟩ := shift_eq_continued h
    have hpart : d :: rest <:+ c :: d :: rest := List.suffix_cons c (d :: rest)
    exact endsContinued_of_suffix (ih (hone.of_suffix hpart) hm) hpart

/-! ## Open strings -/

/-- What it means for a string on one line to be left open: its quote is there, and the search for
the closing one comes to a backslash at the end of the line. -/
theorem stringShape?_openLiteral {quote : Char} {n : Nat}
    (h : stringShape? t = some (.openLiteral quote, n)) :
    ∃ letters m, quoteAt? t = some (letters, quote)
      ∧ literalEnd quote (t.drop (letters + 1)) = .continued m := by
  obtain ⟨letters, q, hquote, ⟨heq, -, -⟩ | ⟨m, -, ⟨heq, -⟩ | ⟨heq, hend⟩⟩⟩ := stringShape?_cases h
  · cases heq
  · cases heq
  · cases heq
    exact ⟨letters, m, hquote, hend⟩

/-- What it means for a string on several lines to be left open: three quotes stand behind the
letters, and reading goes on behind them. -/
theorem stringShape?_tripleOpening {quote : Char} {n : Nat}
    (h : stringShape? t = some (.tripleOpening quote, n)) :
    ∃ letters, quoteAt? t = some (letters, quote) ∧ [quote, quote, quote] <+: t.drop letters
      ∧ n = letters + 3 := by
  obtain ⟨letters, q, hquote, ⟨heq, hopening, hn⟩ | ⟨m, -, ⟨heq, -⟩ | ⟨heq, -⟩⟩⟩ :=
    stringShape?_cases h
  · cases heq
    exact ⟨letters, hquote, hopening, hn⟩
  · cases heq
  · cases heq

/-- The quote stands behind the letters, whatever stands behind the quote. So a string that goes on
over more lines keeps the quote that it was opened with. -/
theorem quoteAt?_append {letters : Nat} {quote : Char} (h : quoteAt? t = some (letters, quote))
    (behind : Text) : letters < t.length ∧ quoteAt? (t ++ behind) = some (letters, quote) := by
  unfold quoteAt? at h
  dsimp only at h
  split at h
  · next q rest hdrop =>
    have hlen := congrArg List.length hdrop
    rw [List.length_drop, List.length_cons] at hlen
    have htake : (t ++ behind).takeWhile Char.isAlpha = t.takeWhile Char.isAlpha := by
      rw [List.takeWhile_append, if_neg (by omega)]
    have hle : (t.takeWhile Char.isAlpha).length ≤ t.length := by omega
    split at h
    · next hmark =>
      cases h
      refine ⟨by omega, ?_⟩
      rw [quoteAt?, htake]
      simp only [List.drop_append_of_le_length hle, hdrop, List.cons_append, hmark, if_true]
    · cases h
  · cases h

/-- A string on one line that its line does not close has been open in each of its lines so far,
which is one. -/
theorem unclosed_of_literalEnd {letters m : Nat} {quote : Char} (start : Nat) (hone : t.OneLine)
    (hquote : quoteAt? t = some (letters, quote))
    (hend : literalEnd quote (t.drop (letters + 1)) = .continued m) :
    OpenString.Unclosed ⟨start, t, quote, false⟩ letters where
  quote := hquote
  triple := by simp
  unclosed := by
    intro line hline
    rw [Text.mem_lines_of_oneLine (hone.drop _) hline]
    exact ⟨by simp [OpenString.close?, OpenString.width, hend],
      fun _ => endsContinued_of_literalEnd (hone.drop _) hend⟩

theorem unclosed_of_tripleEnd? {letters : Nat} {quote : Char} (start : Nat) (hone : t.OneLine)
    (hquote : quoteAt? t = some (letters, quote))
    (htriple : [quote, quote, quote] <+: t.drop letters)
    (hend : tripleEnd? quote (t.drop (letters + 3)) = none) :
    OpenString.Unclosed ⟨start, t, quote, true⟩ letters where
  quote := hquote
  triple := fun _ => htriple
  unclosed := by
    intro line hline
    rw [Text.mem_lines_of_oneLine (hone.drop _) hline]
    exact ⟨hend, by simp⟩

namespace OpenString.Unclosed

variable {s : OpenString} {letters : Nat}

theorem opening_le (h : s.Unclosed letters) : letters + s.width ≤ s.text.length := by
  rw [OpenString.width]
  split
  · next htriple =>
    have hle := (h.triple htriple).length_le
    have hlt := (quoteAt?_append h.quote []).1
    rw [List.length_drop] at hle
    simp only [List.length_cons, List.length_nil] at hle
    omega
  · exact (quoteAt?_append h.quote []).1

theorem text_ne_nil (h : s.Unclosed letters) : s.text ≠ [] := by
  intro hnil
  have hlt := (quoteAt?_append h.quote []).1
  rw [hnil] at hlt
  exact Nat.not_lt_zero _ hlt

/-- One more line that does not close the string. This is the step that carries an open string over
the lines: it is unclosed in each line of it alone, not only in the whole. -/
theorem append (h : s.Unclosed letters) (hends : s.text.getLast? = some '\n')
    (hone : line.OneLine) (hclose : s.close? line = none)
    (hstrict : s.triple = false → endsContinued line = true) :
    Unclosed { s with text := s.text ++ line } letters where
  quote := (quoteAt?_append h.quote line).2
  triple := by
    intro htriple
    have hle := h.opening_le
    rw [List.drop_append_of_le_length (by omega)]
    exact (h.triple htriple).trans (List.prefix_append _ _)
  unclosed := by
    intro next hnext
    -- the text so far ends a line, so the lines of the whole are its lines and the new one
    have hlines : Text.lines ((s.text ++ line).drop (letters + s.width))
        = Text.lines (s.text.drop (letters + s.width)) ++ Text.lines line := by
      rw [List.drop_append_of_le_length h.opening_le]
      refine Text.lines_append ?_
      rw [List.getLast?_drop, hends, List.drop_eq_nil_iff]
      split
      · next hle => exact Or.inl hle
      · exact Or.inr rfl
    rcases List.mem_append.mp (hlines ▸ hnext) with hnext | hnext
    · exact h.unclosed next hnext
    · rw [Text.mem_lines_of_oneLine hone hnext]
      exact ⟨hclose, hstrict⟩

end OpenString.Unclosed

/-! ## Steps and lines -/

/-- No string is open, and no backslash has ended the line. -/
structure MidLine (st : State) : Prop where
  string : st.openString = none
  continued : st.continued = false

/-- Between two states within a line, of which `t` is left before the first one, stand the lexemes
`read`. -/
structure Carries (t : Text) (st : State) (read : List Lexeme) (st' : State) : Prop where
  indents : st'.indents = st.indents
  layout : ∀ x ∈ read, x.isLayout = false
  depth : st'.depth = read.foldl depthBehind st.depth
  continued : st'.continued = true → endsContinued t = true ∧ st'.openString = none
  string : ∀ s ∈ st'.openString, ∃ letters, s.Unclosed letters
    ∧ (s.triple = false → st'.strict = true) ∧ s.text.getLast? = t.getLast?

/-- Lexemes that change brackets alone. Nearly all that is read within a line is of this kind. -/
theorem MidLine.carries (h : MidLine st) (t : Text) {lexemes : List Lexeme}
    (hlayout : ∀ x ∈ lexemes, x.isLayout = false) :
    Carries t st lexemes { st with depth := lexemes.foldl depthBehind st.depth } where
  indents := rfl
  layout := hlayout
  depth := rfl
  continued := by simp [h.continued]
  string := by simp [h.string]

/-- A lexeme that is no operator changes nothing. -/
theorem MidLine.carries_lexeme (h : MidLine st) (t : Text) {x : Lexeme}
    (hlayout : x.isLayout = false) (hdepth : depthBehind st.depth x = st.depth) :
    Carries t st [x] st := by
  have hcarries := h.carries t (List.forall_mem_singleton.mpr hlayout)
  rwa [List.foldl_cons, List.foldl_nil, hdepth] at hcarries

/-- What holds of the end of a line holds of the line. So what is left of a line stands for the line
while it is read. -/
theorem Carries.of_suffix {part : Text} (h : Carries part st lexemes st') (hpart : part <:+ t) :
    Carries t st lexemes st' where
  indents := h.indents
  layout := h.layout
  depth := h.depth
  continued := fun hcontinued =>
    ⟨endsContinued_of_suffix (h.continued hcontinued).1 hpart, (h.continued hcontinued).2⟩
  string := by
    intro s hs
    obtain ⟨letters, hunclosed, hstrict, hlast⟩ := h.string s hs
    refine ⟨letters, hunclosed, hstrict, ?_⟩
    -- an open string is not empty, so neither is the end of the line
    have hne : part ≠ [] := by
      rintro rfl
      exact hunclosed.text_ne_nil (List.getLast?_eq_none_iff.mp hlast)
    obtain ⟨before, rfl⟩ := hpart
    rw [hlast, List.getLast?_append_of_ne_nil before hne]

/-- What two stretches of lexemes carry, the second read from the state behind the first, both of
them carry together. -/
theorem Carries.trans (h : Carries t st lexemes mid) (h' : Carries t mid more st') :
    Carries t st (lexemes ++ more) st' where
  indents := h'.indents.trans h.indents
  layout := fun x hx => (List.mem_append.mp hx).elim (h.layout x) (h'.layout x)
  depth := by rw [List.foldl_append, ← h.depth, h'.depth]
  continued := h'.continued
  string := h'.string

/-- Word characters are no brackets, so a lexeme that is made of them leaves the depth alone,
operator or not. -/
theorem depthBehind_word {depth : Int} {x : Lexeme}
    (hword : ∀ c ∈ x.text, Unicode.isWord c = true) : depthBehind depth x = depth := by
  have hnot : ['(', '[', '{', ')', ']', '}'].all (!Unicode.isWord ·) = true := by decide +kernel
  have hbracket : ∀ c ∈ ['(', '[', '{', ')', ']', '}'], x.text ≠ [c] := by
    intro c hc htext
    have hc' := List.all_eq_true.mp hnot c hc
    rw [hword c (by simp [htext])] at hc'
    cases hc'
  simp only [List.forall_mem_cons] at hbracket
  simp [depthBehind, depthAfter, hbracket]

/-- What a shape leaves behind. If anything is left of the line, the line goes on; a shape that
leaves a string open or joins the next line takes all that is left. -/
theorem carries_readShape (hone : t.OneLine) (hst : MidLine st) (pos : Nat) {shape : Shape}
    {n : Nat} (h : Stands t n shape) :
    Carries t st (readShape st pos t shape n).lexeme.toList (readShape st pos t shape n).state
      ∧ (t.drop (readShape st pos t shape n).used ≠ [] →
        MidLine (readShape st pos t shape n).state) := by
  cases shape with
  -- a backslash takes its line end with it, so nothing can follow on the line
  | continuation =>
    obtain ⟨rest, m, rfl, hm, rfl⟩ := h
    obtain ⟨hends, hnil⟩ := endsContinued_of_lineEnd hone hm
    refine ⟨⟨rfl, by simp [readShape], rfl, fun _ => ⟨hends, hst.string⟩, ?_⟩, fun hne => ?_⟩
    · simp [readShape, hst.string]
    · rw [readShape, Nat.add_comm, List.drop_succ_cons] at hne
      exact absurd hnil hne
  | comment => exact ⟨hst.carries_lexeme t rfl rfl, fun _ => hst⟩
  | number => exact ⟨hst.carries_lexeme t rfl rfl, fun _ => hst⟩
  | lineEnd =>
    refine ⟨hst.carries_lexeme t ?_ ?_, fun _ => hst⟩
    · split <;> rfl
    -- the closing marks may stand on the line; if not, the string goes on as above
    · split <;> rfl
  | operator =>
    exact ⟨hst.carries t (by simp [readShape, isLayout]), fun _ => ⟨hst.string, hst.continued⟩⟩
  | literal => exact ⟨hst.carries_lexeme t rfl rfl, fun _ => hst⟩
  -- the string is open from here on, and all that is left of the line is its text
  | openLiteral quote =>
    obtain ⟨letters, m, hquote, hend⟩ := stringShape?_openLiteral h
    refine ⟨⟨rfl, by simp [readShape], rfl, by simp [readShape, hst.continued], ?_⟩, ?_⟩
    · rintro s ⟨⟩
      exact ⟨letters, unclosed_of_literalEnd pos hone hquote hend, fun _ => rfl, rfl⟩
    · simp [readShape]
  | tripleOpening quote =>
    obtain ⟨letters, hquote, htriple, rfl⟩ := stringShape?_tripleOpening h
    rw [readShape]
    split
    · exact ⟨hst.carries_lexeme t rfl rfl, fun _ => hst⟩
    · next hend =>
      refine ⟨⟨rfl, by simp, rfl, by simp [hst.continued], ?_⟩, by simp⟩
      rintro s ⟨⟩
      exact ⟨letters, unclosed_of_tripleEnd? pos hone hquote htriple hend, by simp, rfl⟩
  | word =>
    obtain ⟨rfl, -⟩ := h
    -- a word may open a bracket only as far as its letters do, and no letter does
    have htake : t.take (t.takeWhile Unicode.isWord).length = t.takeWhile Unicode.isWord :=
      (List.prefix_iff_eq_take.mp (List.takeWhile_prefix _)).symm
    refine ⟨hst.carries_lexeme t ?_ (depthBehind_word fun c hc => ?_), fun _ => hst⟩
    · split <;> rfl
    · dsimp only at hc
      rw [htake] at hc
      exact List.mem_takeWhile_imp hc

/-- What a step leaves behind: the shape that stands at the place, or a single character where none
does. -/
theorem carries_step (hone : t.OneLine) (hst : MidLine st) (pos : Nat) :
    Carries t st (step st pos t).lexeme.toList (step st pos t).state
      ∧ (t.drop (step st pos t).used ≠ [] → MidLine (step st pos t).state) := by
  rw [step]
  split
  · exact ⟨hst.carries t (List.forall_mem_nil _), fun _ => hst⟩
  · next c rest hdrop =>
    split
    · next shape n hshape =>
      obtain ⟨hcarries, hmid⟩ := carries_readShape (hdrop ▸ hone.drop _) hst
        (pos + (t.takeWhile isSpacing).length) (stands_of_shape? hshape)
      refine ⟨hcarries.of_suffix (hdrop ▸ List.drop_suffix _ t), fun hleft => hmid ?_⟩
      dsimp only at hleft
      rwa [← List.drop_drop, hdrop] at hleft
    · exact ⟨hst.carries_lexeme t rfl rfl, fun _ => hst⟩

/-- What the rest of a line leaves behind. The induction is that of reading, with what is left of
the line getting shorter. -/
theorem carries_restOfLine (hone : t.OneLine) (hst : MidLine st) (pos : Nat) :
    Carries t st (restOfLine st pos t).1 (restOfLine st pos t).2 := by
  fun_induction restOfLine st pos t with
  | case1 => exact hst.carries [] (List.forall_mem_nil _)
  | case2 st pos c rest s used more st' hrest ih =>
    obtain ⟨hcarries, hmid⟩ := carries_step hone hst pos
    have hsuffix := List.drop_suffix used (c :: rest)
    by_cases hleft : (c :: rest).drop used = []
    · -- nothing is left of the line
      rw [hleft, restOfLine] at hrest
      cases hrest
      simpa using hcarries
    · rw [hrest] at ih
      refine hcarries.trans ((ih (hone.drop _) (hmid fun hnil => hleft ?_)).of_suffix hsuffix)
      rw [List.drop_eq_nil_iff] at hnil ⊢
      exact Nat.le_trans hnil (Nat.le_max_right _ _)

/-! ## From line to line -/

/-- What a state says of the lexemes `done` and of the line `last` behind which it stands. -/
structure Told (done : List Lexeme) (last : Text) (st : State) : Prop where
  depth : st.depth = openDepth done
  indents : st.indents = openWidths done
  zero : 0 ∈ st.indents
  continued : st.continued = true → endsContinued last = true ∧ st.openString = none
  string : ∀ s ∈ st.openString, ∃ letters, s.Unclosed letters
    ∧ (s.triple = false → st.strict = true) ∧ s.text.getLast? = last.getLast?

/-- What no element changes comes out of a fold as it went in. -/
theorem foldl_eq_self {α β : Type} {f : α → β → α} {a : α} {xs : List β}
    (h : ∀ x ∈ xs, f a x = a) : xs.foldl f a = a := by
  induction xs with
  | nil => rfl
  | cons x rest ih =>
    rw [List.foldl_cons, h x List.mem_cons_self]
    exact ih fun y hy => h y (List.mem_cons_of_mem _ hy)

/-- Lexemes within a line open and close no block. -/
theorem openWidths_append (h : ∀ x ∈ lexemes, x.isLayout = false) :
    openWidths (done ++ lexemes) = openWidths done := by
  rw [openWidths, List.foldl_append]
  refine foldl_eq_self fun x hx => ?_
  have hlayout := h x hx
  rw [isLayout, Bool.or_eq_false_iff, decide_eq_false_iff_not, decide_eq_false_iff_not] at hlayout
  rw [widthsBehind]
  split
  · next hkind => exact absurd hkind hlayout.1
  · next hkind => exact absurd hkind hlayout.2
  · rfl

/-- Marks for indentation open and close no bracket. -/
theorem openDepth_append (h : ∀ x ∈ lexemes, x.isLayout = true) :
    openDepth (done ++ lexemes) = openDepth done := by
  rw [openDepth, List.foldl_append]
  refine foldl_eq_self fun x hx => ?_
  have hlayout := h x hx
  rw [isLayout, Bool.or_eq_true, decide_eq_true_eq, decide_eq_true_eq] at hlayout
  rw [depthBehind, if_neg]
  rcases hlayout with hkind | hkind <;> simp [hkind]

/-- A line that was read within, from brackets and blocks that the lexemes before it tell, leaves a
state that the lexemes tell with its own. -/
theorem Carries.told (h : Carries line st lexemes st')
    (hdepth : st.depth = openDepth done) (hindents : st.indents = openWidths done)
    (hzero : 0 ∈ st.indents) : Told (done ++ lexemes) line st' where
  depth := by rw [h.depth, hdepth, openDepth, openDepth, List.foldl_append]
  indents := by rw [h.indents, hindents, openWidths_append h.layout]
  zero := h.indents ▸ hzero
  continued := h.continued
  string := h.string

/-- A line that stands in an open string, or closes it: what the string was before is told by the
lexemes, and either it goes on or the rest of the line is read as always. -/
theorem told_stringLine {s : OpenString} (htold : Told done last st)
    (hopen : st.openString = some s) (hlast : last = [] ∨ last.getLast? = some '\n')
    (hone : line.OneLine) (hne : line ≠ []) (pos : Nat) :
    Told (done ++ (stringLine st s pos line).1) line (stringLine st s pos line).2 := by
  obtain ⟨letters, hunclosed, hstrict, hsame⟩ := htold.string s hopen
  have hcontinued : st.continued = false := by
    cases hcontinued : st.continued with
    | false => rfl
    | true => rw [(htold.continued hcontinued).2] at hopen; cases hopen
  have hends : s.text.getLast? = some '\n' := by
    rcases hlast with rfl | hlast
    · exact absurd (List.getLast?_eq_none_iff.mp hsame) hunclosed.text_ne_nil
    · exact hsame.trans hlast
  rw [stringLine]
  split
  · next n hclose =>
    -- the string itself leaves nothing open
    have hmid : MidLine { st with openString := none, strict := false } := ⟨rfl, hcontinued⟩
    have hstring : Carries line _ [⟨.string, s.text ++ line.take n, s.start⟩] _ :=
      hmid.carries_lexeme line rfl rfl
    have hrest := (carries_restOfLine (hone.drop n) hmid (pos + n)).of_suffix
      (List.drop_suffix n line)
    exact (hstring.trans hrest).told htold.depth htold.indents htold.zero
  · next hclose =>
    split
    · have hmid : MidLine { st with openString := none } := ⟨rfl, hcontinued⟩
      exact (hmid.carries_lexeme line rfl rfl).told htold.depth htold.indents htold.zero
    · next hnext =>
      rw [List.append_nil]
      refine ⟨htold.depth, htold.indents, htold.zero, by simp [hcontinued], ?_⟩
      rintro s' ⟨⟩
      refine ⟨letters, hunclosed.append hends hone hclose fun hsingle => ?_, hstrict, ?_⟩
      · simpa [hstrict hsingle] using hnext
      · exact List.getLast?_append_of_ne_nil s.text hne

theorem carries_commentLine (hst : MidLine st) (pos : Nat) :
    Carries line st (commentLine pos t) st := by
  rw [commentLine]
  split
  · exact (hst.carries_lexeme line rfl rfl).trans (hst.carries_lexeme line rfl rfl)
  · exact hst.carries_lexeme line rfl rfl

/-- Each dedent closes one block. -/
theorem foldl_widthsBehind_dedents (n : Nat) (widths : List Nat) (pos : Nat) :
    (List.replicate n (⟨.dedent, [], pos⟩ : Lexeme)).foldl widthsBehind widths
      = widths.drop n := by
  induction n generalizing widths with
  | zero => rfl
  | succ n ih =>
    rw [List.replicate_succ, List.foldl_cons, ih]
    exact List.drop_tail

/-- The blocks that are open behind a change of indentation are those that its lexemes leave open,
and the outermost one, of width zero, is still among them. -/
theorem reindent?_eq_some {indents opened : List Nat} {indentation : Text} {changes : List Lexeme}
    (h : reindent? indents pos indentation = some (changes, opened)) (hzero : 0 ∈ indents) :
    opened = changes.foldl widthsBehind indents ∧ 0 ∈ opened := by
  unfold reindent? at h
  dsimp only at h
  split at h
  · cases h
    exact ⟨rfl, List.mem_cons_of_mem _ hzero⟩
  · split at h
    · split at h
      · cases h
        refine ⟨(foldl_widthsBehind_dedents _ _ _).symm, ?_⟩
        -- the outermost block, of width zero, is never closed
        have htake := List.prefix_iff_eq_take.mp
          (List.takeWhile_prefix (indentWidth indentation < ·) (l := indents))
        rw [← List.take_append_drop (indents.takeWhile (indentWidth indentation < ·)).length
          indents, ← htake, List.mem_append] at hzero
        refine hzero.resolve_left fun hmem => ?_
        simpa using List.mem_takeWhile_imp hmem
      · cases h
    · cases h
      exact ⟨rfl, hzero⟩

/-- A line fits no block if it is indented less than the innermost one and to the width of none. -/
theorem reindent?_eq_none {indents : List Nat} {indentation : Text}
    (h : reindent? indents pos indentation = none) :
    indentWidth indentation < indents.headD 0 ∧ indentWidth indentation ∉ indents := by
  unfold reindent? at h
  dsimp only at h
  split at h
  · cases h
  · split at h
    · next hless =>
      split at h
      · cases h
      · next hstray => exact ⟨hless, by simpa using hstray⟩
    · cases h

/-- A line that begins with no string and no bracket open: first its indentation, which opens or
closes blocks, then the rest of it. -/
theorem told_newLine (htold : Told done last st) (hst : MidLine st) (hone : line.OneLine)
    (h : newLine st pos line = .onward lexemes st') : Told (done ++ lexemes) line st' := by
  unfold newLine at h
  dsimp only at h
  split at h
  · cases h
  · next c rest hdrop =>
    split at h
    · cases h
      exact (carries_commentLine hst _).told htold.depth htold.indents htold.zero
    · split at h
      · cases h
      · next changes opened hchanges =>
        cases h
        obtain ⟨hopened, hzero⟩ := reindent?_eq_some hchanges htold.zero
        have hlayout := isLayout_of_reindent? hchanges
        have hmid : MidLine { st with indents := opened } := ⟨hst.string, hst.continued⟩
        have hrest := carries_restOfLine (hdrop ▸ hone.drop _) hmid
          (pos + (line.takeWhile isSpacing).length)
        rw [← List.append_assoc]
        refine (hrest.of_suffix (hdrop ▸ List.drop_suffix _ line)).told ?_ ?_ hzero
        · rw [htold.depth, openDepth_append hlayout]
        · rw [hopened, htold.indents, openWidths, openWidths, List.foldl_append]

/-- Whichever way a line is read, what is told behind the line before is told behind this one. A
line is read in one of three ways: in a string, within brackets or behind a backslash, or as a new
logical line. -/
theorem told_lexLine (htold : Told done last st) (hlast : last = [] ∨ last.getLast? = some '\n')
    (hone : line.OneLine) (hne : line ≠ []) (h : lexLine st pos line = .onward lexemes st') :
    Told (done ++ lexemes) line st' := by
  unfold lexLine at h
  split at h
  · next s hopen =>
    cases h
    exact told_stringLine htold hopen hlast hone hne pos
  · next hopen =>
    split at h
    · next hrest => exact told_newLine htold ⟨hopen, hrest.2⟩ hone h
    · cases h
      have hmid : MidLine { st with continued := false } := ⟨hopen, rfl⟩
      exact (carries_restOfLine hone hmid pos).told htold.depth htold.indents htold.zero

/-! ## The whole source -/

/-- What stands behind blanks is no blank. -/
theorem head_not_isSpacing {c : Char} {rest : Text}
    (h : line.drop (line.takeWhile isSpacing).length = c :: rest) : isSpacing c = false := by
  have hbehind : (line.takeWhile isSpacing ++ line.dropWhile isSpacing).drop
      (line.takeWhile isSpacing).length = line.dropWhile isSpacing := List.drop_left
  rw [List.takeWhile_append_dropWhile, h] at hbehind
  have hnot := List.head?_dropWhile_not isSpacing line
  rw [← hbehind] at hnot
  exact hnot

/-- A line that does not fit is the third way to fail, and what it says of the open blocks is said
by the lexemes before. -/
theorem strayIndentation_of_newLine {f : Failure} (htold : Told done last st)
    (hdepth : st.depth = 0) (hbegins : source.BeginsLine pos) (hat : At source pos line)
    (h : newLine st pos line = .failed f) :
    ∃ indent, f = .strayDedent pos indent ∧ StrayIndentation source done pos indent := by
  unfold newLine at h
  dsimp only at h
  split at h
  · cases h
  · next c rest hdrop =>
    split at h
    · cases h
    · next hfirst =>
      split at h
      -- of the ways to begin a line, only this one fails: no open block has its indentation
      · next hnone =>
        cases h
        obtain ⟨hless, hstray⟩ := reindent?_eq_none hnone
        rw [htold.indents] at hless hstray
        have hlen : (line.takeWhile isSpacing).length ≤ line.length :=
          (List.takeWhile_prefix _).length_le
        have hslice : source.slice pos (pos + (line.takeWhile isSpacing).length)
            = line.takeWhile isSpacing := by
          rw [hat.slice_eq hlen]
          exact (List.prefix_iff_eq_take.mp (List.takeWhile_prefix _)).symm
        refine ⟨_, rfl, hbegins, ?_, ?_, htold.depth ▸ hdepth, ?_, ?_, ?_⟩
        · intro b hb
          rw [hslice] at hb
          exact List.mem_takeWhile_imp hb
        -- behind the indentation the line has a character that is no spacing
        · obtain ⟨behind, hbehind⟩ := hdrop ▸ (hat.drop hlen).2
          refine ⟨c, ?_, head_not_isSpacing hdrop, by simpa [and_assoc] using hfirst⟩
          rw [← List.head?_drop, ← hbehind]
          rfl
        · rwa [hslice]
        · rwa [hslice]
        · -- the outermost block has no indentation
          refine List.length_pos_iff.mpr fun hnil => hstray ?_
          rw [hnil]
          exact htold.indents ▸ htold.zero
      · cases h

/-- A line fails only by its indentation, so only where no string and no bracket is open. -/
theorem explained_of_lexLine {f : Failure} (htold : Told done last st)
    (hbegins : source.BeginsLine pos) (hat : At source pos line)
    (h : lexLine st pos line = .failed f) : f.Explained source done ∧ pos ≤ f.shownAt := by
  unfold lexLine at h
  split at h
  · cases h
  · split at h
    · next hrest =>
      obtain ⟨indent, rfl, hstray⟩ := strayIndentation_of_newLine htold hrest.1 hbegins hat h
      exact ⟨hstray, Nat.le_add_right _ _⟩
    · cases h

/-- The end of the source fails if something is open that only more text could close: a string, a
bracket, or a line that a backslash continues. -/
theorem explained_endOfSource {f : Failure} (htold : Told done last st) (hlast : last <:+ source)
    (hready : Ready source st lo source.length)
    (h : (endOfSource st source.length last).failure = some f) :
    f.Explained source done ∧ lo ≤ f.shownAt
      ∧ (endOfSource st source.length last).lexemes = [] := by
  unfold endOfSource at h ⊢
  split at h
  · next s hopen =>
    cases h
    obtain ⟨letters, hunclosed, -, -⟩ := htold.string s hopen
    rw [Ready, hopen] at hready
    obtain ⟨hlo, hend, -, hslice⟩ := hready
    refine ⟨⟨s, letters, rfl, ?_, hunclosed⟩, hlo, by simp⟩
    rw [← hslice, Text.slice, List.take_of_length_le (by rw [List.length_drop])]
  · next hopen =>
    split at h
    · cases h
    · next hrest =>
      cases h
      refine ⟨⟨rfl, ?_⟩, hready.le, by simp [hrest]⟩
      -- a bracket is open, or the last line is continued
      by_cases hdepth : st.depth = 0
      · cases hcontinued : st.continued with
        | false => exact absurd ⟨hdepth, hcontinued⟩ hrest
        | true =>
          exact Or.inr (endsContinued_of_suffix (htold.continued hcontinued).1 hlast)
      · exact Or.inl (htold.depth ▸ hdepth)

/-- The line behind which a line begins ends in a line feed. -/
theorem getLast?_of_beginsLine (hlast : last <:+ source.take pos) (h : source.BeginsLine pos) :
    last = [] ∨ last.getLast? = some '\n' := by
  rcases h with rfl | hfeed
  · exact Or.inl (List.suffix_nil.mp hlast)
  · obtain ⟨before, hbefore⟩ := hlast
    rw [← hbefore] at hfeed
    by_cases hnil : last = []
    · exact Or.inl hnil
    · rw [List.getLast?_append_of_ne_nil before hnil] at hfeed
      exact Or.inr hfeed

/-- All lines and the end of the source. What is left of the source and what has been read of it
meet at `pos`, and the induction is on the lines that are left. -/
theorem explained_lexLines {lines : List Text} {f : Failure}
    (hlines : Text.lines (source.drop pos) = lines) (hpos : pos ≤ source.length)
    (hlast : last <:+ source.take pos) (hbegins : lines ≠ [] → source.BeginsLine pos)
    (htold : Told done last st) (hready : Ready source st lo pos)
    (h : (lexLines st pos last lines).failure = some f) :
    f.Explained source (done ++ (lexLines st pos last lines).lexemes)
      ∧ Within source lo f.shownAt (lexLines st pos last lines).lexemes := by
  induction lines generalizing st pos lo last done with
  | nil =>
    -- no line is left, so it is the end of the source that fails
    have hend : pos = source.length := by
      have hnil := List.drop_eq_nil_iff.mp (Text.lines_eq_nil hlines)
      omega
    subst hend
    rw [List.take_length] at hlast
    rw [lexLines] at h ⊢
    obtain ⟨hexplained, hle, hnil⟩ := explained_endOfSource htold hlast hready h
    rw [hnil, List.append_nil]
    exact ⟨hexplained, hle⟩
  | cons line rest ih =>
    obtain ⟨hne, hone, hends, hbehind⟩ := Text.lines_eq_cons hlines
    have hdrop : source.drop pos = line ++ rest.flatten := by
      rw [← List.flatten_cons, ← hlines, Text.flatten_lines]
    have hat : At source pos line := ⟨hpos, hdrop ▸ List.prefix_append _ _⟩
    have hpos' : source.BeginsLine pos := hbegins (by simp)
    -- the line stands at `pos`, begins there, and the source goes on behind it
    have hbefore := getLast?_of_beginsLine hlast hpos'
    have htake : source.take (pos + line.length) = source.take pos ++ line := by
      rw [List.take_add, hdrop, List.take_left]
    rw [lexLines] at h ⊢
    split at h
    -- the line was read: all that is known before it is known again before the next one
    · next lexemes st' hline =>
      obtain ⟨mid, hwithin, hnext⟩ := hat.readsTo_lexLine hready hline
      have htold' := told_lexLine htold hbefore hone hne hline
      rw [List.drop_drop] at hbehind
      have hbegins' : rest ≠ [] → source.BeginsLine (pos + line.length) := by
        intro hmore
        refine Or.inr ?_
        rw [htake, List.getLast?_append_of_ne_nil _ hne]
        exact hends hmore
      obtain ⟨hexplained, hrest⟩ := ih hbehind hat.length_le (htake ▸ List.suffix_append _ _)
        hbegins' htold' hnext h
      rw [List.append_assoc] at hexplained
      exact ⟨hexplained, hwithin.append hrest⟩
    · cases h
    -- the line itself fails, and there is nothing behind it
    · next f' hline =>
      cases h
      obtain ⟨hexplained, hle⟩ := explained_of_lexLine htold hpos' hat hline
      rw [List.append_nil]
      exact ⟨hexplained, Nat.le_trans hready.le hle⟩

end Lexer

/-- **Why reading fails, and where.** A failure is explained by the source and the lexemes before
it, and these lie in order before the place at which it is shown. No state of the lexer is in this
statement: what it says can be checked against the source and the lexemes alone. -/
theorem lex_failure {source : Text} {f : Failure} (h : (lex source).failure = some f) :
    f.Explained source (lex source).lexemes
      ∧ Lexer.Within source 0 f.shownAt (lex source).lexemes := by
  have htold : Lexer.Told [] [] {} := ⟨rfl, rfl, by simp, by simp, by simp⟩
  exact Lexer.explained_lexLines rfl (Nat.zero_le _) List.nil_suffix (fun _ => Or.inl rfl) htold
    (Nat.le_refl 0) h

end Orthography
