/-
What parsing leaves of a source that cannot be read to its end.

A failure is told by a line and a column, in two forms, and one offset is read off them. Whatever
was fed by then ends before that offset, and all the rest of the source is one piece of white space
before the end.
-/
import Mathlib.Data.List.Basic
import Orthography.Lexeme.Notice
import Orthography.Proofs.Lexeme.Failure
import Orthography.Proofs.Lint.Placement
import Orthography.Proofs.Lint.Questions
import Orthography.Proofs.Parse.Rewriting
import Orthography.Proofs.Parse.Tiling
import Orthography.Proofs.Text.Positions
import Orthography.Proofs.Tree.Rebuild

set_option autoImplicit false

namespace Orthography

/-! ## From a notice back to an offset -/

/-- Behind the last line there is the end of the source. -/
theorem LineIndex.offsetOf_end (t : Text) :
    (LineIndex.ofText t).offsetOf (t.lines.length + 1 : Nat) 0 = .ok t.length := by
  by_cases hends : t = [] ∨ t.getLast? = some '\n'
  · -- the last line is empty, and it begins at the end
    have hline : t.lines.length + 1 = 1 + (t.take t.length).count '\n' := by
      rw [Text.length_lines, if_pos hends, List.take_length]
      omega
    have hbegins : t.BeginsLine t.length := by
      rw [Text.BeginsLine, List.take_length]
      exact hends.imp_left fun h => by rw [h]; rfl
    rw [hline, LineIndex.offsetOf_line (Nat.le_refl _),
      Text.startOf_of_beginsLine hbegins (Nat.le_refl _)]
    simp
  · have hlength : (LineIndex.ofText t).length = t.length := rfl
    rw [LineIndex.offsetOf, if_pos, hlength]
    rw [LineIndex.lineCount, LineIndex.ofText, List.length_cons, LineIndex.length_startsFrom,
      Text.length_lines, if_neg hends]
    omega

/-- What is known and not zero counts as it is. -/
theorem Notice.orOne_natCast {n : Nat} (h : 0 < n) : orOne (some (n : Int)) = n := by
  have hne : n ≠ 0 := by omega
  simp [orOne, Option.filter, hne]

/-- **A failure is shown where its notice says.** What is told of a failure of the lexer always
stands for an offset, and it is the one at which the failure is shown. -/
theorem Failure.offset_notice {source : Text} {lexemes : List Lexeme} {f : Failure}
    (h : f.Explained source lexemes) (hle : f.shownAt ≤ source.length) :
    (f.notice source).offset (LineIndex.ofText source) = .ok f.shownAt := by
  cases f with
  | unclosedString start =>
    rw [shownAt] at hle ⊢
    have hsum := Text.startOf_add_column hle
    rw [notice, Notice.offset, Text.row, LineIndex.offsetOf_line hle]
    congr 1
    omega
  | unclosedStatement length =>
    obtain ⟨rfl, -⟩ := h
    exact LineIndex.offsetOf_end source
  | strayDedent lineStart indent =>
    obtain ⟨hbegins, -, -, -, -, -, hpos⟩ := h
    rw [shownAt] at hle ⊢
    have hstart : lineStart ≤ source.length := Nat.le_trans (Nat.le_add_right _ _) hle
    -- rows and columns of this notice count from one, and none of them is zero
    have hrow : 0 < source.row lineStart := by
      rw [Text.row]
      omega
    have hline := Notice.orOne_natCast hrow
    have hcolumn : max (Notice.orOne (some (indent : Int)) - 1) 0 = ((indent - 1 : Nat) : Int) := by
      rw [Notice.orOne_natCast hpos]
      omega
    rw [notice, Notice.offset, hline, hcolumn, Text.row, LineIndex.offsetOf_line hstart,
      Text.startOf_of_beginsLine hbegins hstart]
    congr 1
    omega

/-! ## What lexemes leave of a source -/

namespace Tree

/-- The rest of a source as a piece of white space; none if nothing is left. -/
def remainder (source : Text) (offset : Nat) : List Trivia :=
  if offset < source.length then [⟨.whitespace, source.drop offset, offset⟩] else []

end Tree

/-- The event feeds a text that ends before an offset. -/
def Event.EndsBy (hi : Int) (e : Event) : Prop := ∀ p ∈ e.fragment?, p.1 + p.2.length ≤ hi

/-- Whatever adjoins up to an offset ends before it. -/
theorem Covers.endsBy {source : Text} {lo hi : Nat} {events : List Event}
    (h : Covers source lo hi (events.filterMap Event.fragment?)) :
    ∀ e ∈ events, e.EndsBy hi := by
  intro e he p hp
  exact h.stop_le p (List.mem_filterMap.mpr ⟨e, he, hp⟩)

/-- **What is fed.** First come events that end where the last lexeme ends that is converted, then
the rest of the source. -/
theorem Event.ofLexemes_eq {source : Text} {lexemes : List Lexeme}
    (h : Lexeme.Spelling source lexemes) :
    ∃ fed, Event.ofLexemes source lexemes
        = fed ++ (Tree.remainder source (Lexeme.convertedTo lexemes)).map Trivia.event
      ∧ ∀ e ∈ fed, e.EndsBy (Lexeme.convertedTo lexemes) := by
  obtain ⟨hcovers, hin, hoffset⟩ := (Cursor.in_start source).covers_feedAll h
    fun _ _ _ => Nat.zero_le _
  obtain ⟨hflushed, hrest, hsame, -⟩ := hin.covers_flush
  have hto : ((Cursor.start source).feedAll lexemes).2.flush.2.offset
      = Lexeme.convertedTo lexemes := hsame.trans hoffset
  refine ⟨((Cursor.start source).feedAll lexemes).1
    ++ ((Cursor.start source).feedAll lexemes).2.flush.1, ?_, ?_⟩
  · rw [ofLexemes, Cursor.events_eq, Cursor.close, ← List.append_assoc]
    congr 1
    rw [Cursor.gap, Tree.remainder, hto, hrest.rest, hto]
    split
    · rw [List.take_of_length_le (by rw [List.length_drop])]
      rfl
    · rfl
  · have hfed := hcovers.append hflushed
    rw [← List.filterMap_append, hto] at hfed
    exact hfed.endsBy

/-- Tokens and comments are fed before the rest of the source. -/
theorem Event.endsBy_ofLexemes {source : Text} {lexemes : List Lexeme}
    (h : Lexeme.Spelling source lexemes) {e : Event} (he : e ∈ Event.ofLexemes source lexemes)
    (hspace : ∀ text offset, e ≠ .trivia .whitespace text offset) :
    e.EndsBy (Lexeme.convertedTo lexemes) := by
  obtain ⟨fed, hfed, hends⟩ := ofLexemes_eq h
  rw [hfed, List.mem_append] at he
  rcases he with he | he
  · exact hends e he
  · obtain ⟨piece, hpiece, rfl⟩ := List.mem_map.mp he
    rw [Tree.remainder] at hpiece
    split at hpiece
    · obtain rfl := List.mem_singleton.mp hpiece
      exact absurd rfl (hspace _ _)
    · cases hpiece

theorem Token.mem_fragments_of_mem_trivia (t : Token) {piece : Trivia} (h : piece ∈ t.trivia) :
    (piece.offset, piece.text) ∈ Tree.fragments t := by
  rw [Tree.fragments]
  rcases List.mem_append.mp h with h | h
  · exact List.mem_append_left _ (List.mem_map_of_mem h)
  · exact List.mem_append_right _ (List.mem_cons_of_mem _ (List.mem_map_of_mem h))

namespace Tree

variable {source : Text} {lexemes : List Lexeme}

/-- The tokens of a tree, but for its end, are those that were fed. -/
theorem tokens_ofLexemes_perm (source : Text) (lexemes : List Lexeme) :
    ((Token.descendantsAll (ofLexemes source lexemes).tokens).map Token.event).Perm
      (Lexeme.rewriting (lexemes.filter (!·.isLayout))) := by
  have hperm := Event.tokens_perm (pieces_ofLexemes_perm source lexemes)
  rw [descendants_eq _ rfl, List.map_append, Event.tokens_ofLexemes] at hperm
  exact (List.perm_append_right_iff _).mp hperm

theorem stop_le_of_mem_tokens (h : Lexeme.Spelling source lexemes) {t : Token}
    (ht : t ∈ Token.descendantsAll (ofLexemes source lexemes).tokens) :
    t.stop ≤ Lexeme.convertedTo lexemes := by
  have hfed := (tokens_ofLexemes_perm source lexemes).subset (List.mem_map_of_mem ht)
  rw [← Event.tokens_ofLexemes source] at hfed
  exact Event.endsBy_ofLexemes h (List.mem_of_mem_filter hfed) (by simp [Token.event]) _ rfl

/-- And no comment does. White space may: what was not read goes to the end of the source as white
space. -/
theorem stop_le_of_mem_comments (h : Lexeme.Spelling source lexemes) {t : Token}
    (ht : t ∈ (ofLexemes source lexemes).descendants) {piece : Trivia} (hpiece : piece ∈ t.trivia)
    (hkind : piece.kind = .comment) :
    piece.offset + piece.text.length ≤ Lexeme.convertedTo lexemes := by
  have hmem : piece.event ∈ t.pieces := by
    have hevent := List.mem_map_of_mem (f := Trivia.event) hpiece
    rw [← t.filter_isTrivia_pieces] at hevent
    exact List.mem_of_mem_filter hevent
  have hfed := (pieces_ofLexemes_perm source lexemes).subset (List.mem_flatMap.mpr ⟨t, ht, hmem⟩)
  rw [List.mem_append, List.mem_singleton] at hfed
  rcases hfed with hfed | hfed
  · exact Event.endsBy_ofLexemes h (List.mem_of_mem_filter hfed) (by simp [Trivia.event, hkind]) _
      rfl
  · cases hfed

/-- **What is left.** The rest of the source stands last before its end, and nothing else that
stands there belongs to the rest. -/
theorem leading_eof_ofLexemes (h : Lexeme.Spelling source lexemes) :
    ∃ before, (ofLexemes source lexemes).eof.leading
        = before ++ remainder source (Lexeme.convertedTo lexemes)
      ∧ ∀ piece ∈ before, piece.offset + piece.text.length ≤ Lexeme.convertedTo lexemes := by
  obtain ⟨fed, hfed, hends⟩ := Event.ofLexemes_eq h
  refine ⟨(Builder.run fed).waiting, ?_, ?_⟩
  · rw [ofLexemes, hfed]
    show (Builder.run _).waiting = _
    rw [Builder.run, List.foldl_append, remainder, ← Builder.run]
    split
    · next hleft =>
      have hne : source.drop (Lexeme.convertedTo lexemes) ≠ [] := by
        rw [ne_eq, List.drop_eq_nil_iff]
        omega
      simp [Builder.step, Builder.addTrivia, Trivia.event, hne]
    · exact (List.append_nil _).symm
  · intro piece hpiece
    have hfinish : .finish ∉ fed := by
      intro hmem
      refine (Cursor.start source).finish_notMem_events source.length lexemes ?_
      show .finish ∈ Event.ofLexemes source lexemes
      rw [hfed]
      exact List.mem_append_left _ hmem
    -- what waits is in the tree that was fed so far
    have hmem : piece.event ∈
        ((Builder.run fed).tree source source.length).descendants.flatMap Token.pieces := by
      rw [descendants_eq _ rfl, List.flatMap_append]
      refine List.mem_append_right _ ?_
      simp only [List.flatMap_singleton]
      exact List.mem_append_left _ (List.mem_map_of_mem hpiece)
    have hpieces := (Event.pieces_run_perm hfinish source source.length).subset hmem
    rw [List.mem_append, List.mem_singleton] at hpieces
    rcases hpieces with hpieces | hpieces
    · exact hends _ (List.mem_of_mem_filter hpieces) _ rfl
    · cases hpieces

/-- A fragment that ends before an offset is a stretch of the source that does. -/
theorem Tiles.exists_slice {tree : Tree} (htiles : tree.Tiles source) {t : Token}
    (ht : t ∈ tree.descendants) {p : Int × Text} (hp : p ∈ fragments t) {hi : Nat}
    (hstop : p.1 + p.2.length ≤ hi) :
    ∃ start stop, start ≤ stop ∧ stop ≤ hi ∧ p.2 = source.slice start stop := by
  obtain ⟨hstart, htext⟩ := htiles.spelled p (List.mem_flatMap.mpr ⟨t, ht, hp⟩)
  exact ⟨p.1.toNat, p.1.toNat + p.2.length, Nat.le_add_right _ _, by omega, htext.symm⟩

/-- **What is asked.** Every question of a check is about a stretch of the source that ends before
an offset, if what was converted does. -/
theorem exists_slice_of_mem_queries (h : Lexeme.Spelling source lexemes) {hi : Nat}
    (hhi : Lexeme.convertedTo lexemes ≤ hi) {site : Lint.Site} {options : Lint.Options} {q : Text}
    (hq : q ∈ Lint.Act.queries (site.checkTree options (ofLexemes source lexemes))) :
    ∃ start stop, start ≤ stop ∧ stop ≤ hi ∧ q = Prose.ofRaw (source.slice start stop) := by
  have htiles := tiles_ofLexemes h
  rw [Lint.Site.queries_checkTree] at hq
  obtain ⟨question, hquestion, rfl⟩ := List.mem_map.mp hq
  obtain ⟨t, ht, ⟨comment, hcomment, hraw⟩ | ⟨hkind, hraw⟩⟩ :=
    Lint.Options.raw_of_mem_questions hquestion
  · obtain ⟨piece, hpiece, rfl⟩ := List.mem_map.mp hcomment
    obtain ⟨hpiece, hcomment⟩ := List.mem_filter.mp hpiece
    rw [decide_eq_true_eq] at hcomment
    have hstop := stop_le_of_mem_comments h ht hpiece hcomment
    obtain ⟨start, stop, hle, hbefore, htext⟩ :=
      htiles.exists_slice ht (t.mem_fragments_of_mem_trivia hpiece) hstop
    exact ⟨start, stop, hle, hbefore.trans hhi, hraw.trans (congrArg _ htext)⟩
  · have htokens := ht
    rw [descendants_eq _ rfl, List.mem_append, List.mem_singleton] at htokens
    rcases htokens with htokens | rfl
    · obtain ⟨start, stop, hle, hbefore, htext⟩ :=
        htiles.exists_slice ht t.offset_mem_fragments (stop_le_of_mem_tokens h htokens)
      exact ⟨start, stop, hle, hbefore.trans hhi, hraw.trans (congrArg _ htext)⟩
    · -- the end of the source has no text to check
      cases hkind

end Tree

/-! ## Parsing -/

namespace Parsed

/-- What parsing says of a source whose lexemes end in a failure. -/
structure Reports (p : Parsed) (lexemes : List Lexeme) (failure : Failure) (d : Diagnostic) :
    Prop where
  /-- Reading failed in one of three ways. -/
  explained : failure.Explained p.source lexemes
  /-- That is the one thing reported. -/
  alone : p.diagnostics = [d] ∧ d.code = Rule.tokenizeError.code
  /-- It is reported at the offset that is read off its notice, -/
  told : (failure.notice p.source).offset p.index = .ok d.span.start
  /-- and at the line and column of that offset. -/
  placed : d.IsAt p.source d.span.start

/-- What parsing leaves of such a source. -/
structure CutShort (p : Parsed) (lexemes : List Lexeme) (failure : Failure) (d : Diagnostic) :
    Prop extends p.Reports lexemes failure d where
  /-- The tokens are those of the lexemes. -/
  tokens : ((Token.descendantsAll p.tree.tokens).map Token.event).Perm
    (Lexeme.rewriting (lexemes.filter (!·.isLayout)))
  tokens_stop : ∀ t ∈ Token.descendantsAll p.tree.tokens, t.stop ≤ d.span.start
  comments_stop : ∀ t ∈ p.tree.descendants, ∀ piece ∈ t.trivia, piece.kind = .comment →
    piece.offset + piece.text.length ≤ d.span.start
  /-- All that is not converted stands as one piece of white space before the end, behind what is
  converted. -/
  rest : ∃ before, p.tree.eof.leading
      = before ++ Tree.remainder p.source (Lexeme.convertedTo lexemes)
    ∧ ∀ piece ∈ before, piece.offset + piece.text.length ≤ Lexeme.convertedTo lexemes
  /-- No question is about anything behind the report. -/
  unread : ∀ (oracle : Spelling.Oracle) (options : Lint.Options) (report : Option Report),
    ∀ q ∈ (Lint.checkParsed oracle options report p).queries, ∃ start stop,
      start ≤ stop ∧ stop ≤ d.span.start ∧ q = Prose.ofRaw (p.source.slice start stop)

end Parsed

theorem Failure.Explained.shownAt_le {source : Text} {lexemes : List Lexeme} {failure : Failure}
    (h : failure.Explained source lexemes) : failure.shownAt ≤ source.length := by
  cases failure with
  | unclosedString start =>
    obtain ⟨s, letters, rfl, htext, hunclosed⟩ := h
    have hne := hunclosed.text_ne_nil
    rw [htext, ne_eq, List.drop_eq_nil_iff] at hne
    show s.start ≤ source.length
    omega
  | unclosedStatement length => exact Nat.le_of_eq h.1
  | strayDedent lineStart indent =>
    obtain ⟨c, hc, -⟩ := h.first
    obtain ⟨hlt, -⟩ := List.getElem?_eq_some_iff.mp hc
    show lineStart + (indent - 1) ≤ source.length
    omega

/-- A source that could not be read in full has one diagnostic, which says what happened and stands
where it is shown. -/
theorem Parsed.reports_parse {source : Text} {failure : Failure}
    (h : (lex source).failure = some failure) (filePath : String) :
    ∃ d, (parse source filePath).Reports (lex source).lexemes failure d
      ∧ d.span.start = failure.shownAt := by
  obtain ⟨hexplained, -⟩ := lex_failure h
  have hle := hexplained.shownAt_le
  have hat := Lint.isAt_failureDiagnostic source filePath failure
  rw [Nat.min_eq_left hle] at hat
  have hshown := congrArg Span.start hat.span
  have halone : (parse source filePath).diagnostics
      = [failureDiagnostic filePath (LineIndex.ofText source) failure] := by
    rw [parse, ofLexing, h]
    rfl
  refine ⟨_, ⟨hexplained, ⟨halone, Diagnostic.code_placed _ _⟩, ?_, ?_⟩, hshown⟩
  · rw [hshown]
    exact Failure.offset_notice hexplained hle
  · rw [hshown]
    exact hat

theorem Diagnostic.isError_placed (d : Diagnostic) (place : Option LineColumn) :
    (d.placed place).isError = d.isError := by
  cases place <;> rfl

/-- A failure counts as an error. -/
theorem Parsed.hasErrors_parse (source : Text) (filePath : String) :
    (parse source filePath).hasErrors = (lex source).failure.isSome := by
  rw [hasErrors, parse, ofLexing]
  cases (lex source).failure with
  | none => rfl
  | some failure =>
    show (failureDiagnostic _ _ failure).isError || false = true
    rw [failureDiagnostic, Diagnostic.isError_placed]
    rfl

/-- **Failing is no reason to give up.** Parsing always gives a result, and it has errors exactly if
the lexemes end in a failure. That is then the one thing reported. The tree has the tokens read by
then, no token and no comment reaches beyond the report, all the rest is white space before the end,
and none of it is checked for spelling. -/
theorem parse_failure (source : Text) (filePath : String) :
    (parse source filePath).hasErrors = (lex source).failure.isSome
      ∧ ∀ failure, (lex source).failure = some failure →
        ∃ d, (parse source filePath).CutShort (lex source).lexemes failure d := by
  refine ⟨Parsed.hasErrors_parse source filePath, ?_⟩
  intro failure h
  obtain ⟨d, hreports, hshown⟩ := Parsed.reports_parse h filePath
  obtain ⟨-, hwithin⟩ := lex_failure h
  have hspelling := lex_spelling source
  -- the lexemes end before the report, so what they were converted to does as well
  have hconverted : Lexeme.convertedTo (lex source).lexemes ≤ d.span.start := by
    rw [hshown]
    exact Lexeme.convertedTo_le hwithin.stop_le.2
  refine ⟨d, { hreports with
    tokens := Tree.tokens_ofLexemes_perm source _
    tokens_stop := ?_
    comments_stop := ?_
    rest := Tree.leading_eof_ofLexemes hspelling
    unread := ?_ }⟩
  · intro t ht
    have hstop := Tree.stop_le_of_mem_tokens hspelling ht
    omega
  · intro t ht piece hpiece hkind
    have hstop := Tree.stop_le_of_mem_comments hspelling ht hpiece hkind
    omega
  · intro oracle options report q hq
    exact Tree.exists_slice_of_mem_queries hspelling hconverted hq

/-- A line that fits no block, behind a dollar sign that waits for its name. -/
theorem parse_failure_dollar :
    let source := "if a: # b\n    $\n  c\n".toList
    ∃ d, (parse source "m.py").CutShort (lex source).lexemes (.strayDedent 16 2) d
      ∧ (parse source "m.py").hasErrors = true := by
  intro source
  obtain ⟨herrors, hfailed⟩ := parse_failure source "m.py"
  have hlex : (lex source).failure = some (.strayDedent 16 2) := by decide +kernel
  obtain ⟨d, hd⟩ := hfailed _ hlex
  refine ⟨d, hd, ?_⟩
  rw [herrors, hlex]
  rfl

/-! ## Where a failure is shown -/

namespace Failure

/-- Is it a line that fits no block? -/
def isStray : Failure → Bool
  | .strayDedent _ _ => true
  | _ => false

/-- The last blank of a stray indentation stands before the place where reading stopped. -/
theorem stop_eq {source : Text} {lexemes : List Lexeme} {failure : Failure}
    (h : failure.Explained source lexemes) :
    failure.stop = failure.shownAt + if failure.isStray then 1 else 0 := by
  cases failure with
  | unclosedString start => rfl
  | unclosedStatement length => rfl
  | strayDedent lineStart indent =>
    have hpos := h.pos
    show lineStart + indent = lineStart + (indent - 1) + 1
    omega

end Failure

/-- **One character early.** A source that ends in a string or a statement is reported where reading
stopped: where the string begins, or at the end of the source. A line that fits no block is reported
one character before its first character that is no blank. -/
theorem parse_stop_eq {source : Text} {failure : Failure} (h : (lex source).failure = some failure)
    (filePath : String) :
    ∃ d, (parse source filePath).Reports (lex source).lexemes failure d
      ∧ failure.stop = d.span.start + if failure.isStray then 1 else 0 := by
  obtain ⟨d, hreports, hshown⟩ := Parsed.reports_parse h filePath
  refine ⟨d, hreports, ?_⟩
  rw [hshown]
  exact Failure.stop_eq hreports.explained

/-- A string with letters before it, behind one that closes. -/
theorem parse_stop_eq_string :
    let source := "x = '' + rb\"\"\"a\n".toList
    (lex source).failure = some (.unclosedString 9)
      ∧ ∃ d, (parse source "m.py").Reports (lex source).lexemes (.unclosedString 9) d
        ∧ d.span.start = 9 := by
  intro source
  have hlex : (lex source).failure = some (.unclosedString 9) := by decide +kernel
  obtain ⟨d, hreports, hstop⟩ := parse_stop_eq hlex "m.py"
  exact ⟨hlex, d, hreports, hstop.symm⟩

/-- The line `c` fits no block, and it is reported at the blank before `c`. -/
theorem parse_stop_ne_dedent :
    let source := "if a:\n    b\n  c\n".toList
    (lex source).failure = some (.strayDedent 12 2) ∧ source[14]? = some 'c'
      ∧ ¬ ∀ d ∈ (parse source "m.py").diagnostics, d.span.start = 14 := by
  intro source
  have hshown : (parse source "m.py").diagnostics.map (·.span.start) = [13] := by decide +kernel
  refine ⟨by decide +kernel, rfl, fun hall => ?_⟩
  have hstop : ∀ start ∈ (parse source "m.py").diagnostics.map (·.span.start), start = 14 := by
    rintro start hstart
    obtain ⟨d, hd, rfl⟩ := List.mem_map.mp hstart
    exact hall d hd
  rw [hshown] at hstop
  exact absurd (hstop 13 List.mem_cons_self) (by decide)

end Orthography
