/-
Every finding stands at a place of its source.

A finding is placed by an offset: a token's, that of the trivia before it, that of the end of the
source, or the one at which reading failed. An offset beyond the source has no line, and a finding
there would stand at line and column zero, with a warning in the log. Main statement,
`checkSource_sited`: this does not happen. The offsets of a tree are those of its fragments, which
tile the source, and the offset of a failure is cut to the length of the source, so all of them are
in the index of lines, which gives the place and leads back from it.
-/
import Orthography.Proofs.Lint.Emission
import Orthography.Proofs.Parse.Tiling
import Orthography.Proofs.Text.LineIndex
import Orthography.Proofs.Tree.Traversal

set_option autoImplicit false

namespace Orthography

/-! ## Places -/

/-- The finding stands at an offset of a source, and its line and column say so. -/
structure Diagnostic.IsAt (d : Diagnostic) (source : Text) (offset : Nat) : Prop where
  within : offset ≤ source.length
  /-- It covers no text there. -/
  span : d.span = Span.empty offset
  /-- Its line is counted by the line feeds before it. -/
  line : d.line = (1 + (source.take offset).count '\n' : Nat)
  column : 1 ≤ d.column
  /-- Line and column lead back to the offset. -/
  back : (LineIndex.ofText source).offsetOf d.line (d.column - 1) = .ok offset

theorem Diagnostic.code_placed (d : Diagnostic) (place : Option LineColumn) :
    (d.placed place).code = d.code := by
  cases place <;> rfl

/-- A finding that is placed by an offset of the source stands there. -/
theorem Rule.isAt_finding (rule : Rule) (message filePath : String) {source : Text} {offset : Nat}
    (h : offset ≤ source.length) :
    ((rule.finding message offset filePath).placed
      ((LineIndex.ofText source).lineColumn? offset)).IsAt source offset := by
  rw [LineIndex.lineColumn?_ofText h]
  refine ⟨h, rfl, rfl, ?_, LineIndex.offsetOf_ofText h⟩
  simp only [Diagnostic.placed]
  omega

/-! ## The offsets of a tree -/

/-- The offset is one of the source. -/
def Text.HasOffset (source : Text) (offset : Int) : Prop := 0 ≤ offset ∧ offset ≤ source.length

/-- The tree of lexemes that spell a source has offsets of the source only. -/
theorem Tree.hasOffset_of_mem_fragments {source : Text} {lexemes : List Lexeme}
    (h : Lexeme.Spelling source lexemes) {t : Token}
    (ht : t ∈ (Tree.ofLexemes source lexemes).descendants) {p : Int × Text}
    (hp : p ∈ fragments t) : source.HasOffset p.1 := by
  have hcovers := (Event.covers_ofLexemes h).pieces
  have hmem : p ∈ (Tree.ofLexemes source lexemes).descendants.flatMap fragments :=
    List.mem_flatMap.mpr ⟨t, ht, hp⟩
  rcases List.mem_append.mp ((fragments_ofLexemes_perm source lexemes).subset hmem) with hfed | heof
  · have hlo := (hcovers.spelled p hfed).1
    have hhi := hcovers.stop_le p hfed
    constructor <;> omega
  · obtain rfl := List.mem_singleton.mp heof
    exact ⟨Int.natCast_nonneg _, Int.le_refl _⟩

theorem Token.offset_mem_fragments (t : Token) : (t.offset, t.text) ∈ Tree.fragments t := by
  rw [Tree.fragments]
  exact List.mem_append_right _ List.mem_cons_self

/-- A token starts with one of its fragments. -/
theorem Token.start_mem_fragments (t : Token) : ∃ text, (t.start, text) ∈ Tree.fragments t := by
  rw [start]
  cases hleading : t.leading with
  | nil => exact ⟨t.text, t.offset_mem_fragments⟩
  | cons piece rest =>
    refine ⟨piece.text, ?_⟩
    rw [Tree.fragments, hleading, List.map_cons]
    exact List.mem_append_left _ List.mem_cons_self

namespace Lint

open Spelling

namespace Site

variable {site : Site} {options : Options} {P : Act → Prop}

/-! ## All that a check does -/

/-- What holds of all that the check of a piece of text does at an offset. A check asks once, writes
records, and reports once at most, so three hypotheses are enough. -/
theorem forall_mem_check {raw : Text} {offset : Int} (hquery : ∀ t, P (.query t))
    (hlog : ∀ record ∈ site.records offset, P (.log record))
    (hreport : ∀ t misspelled, P (.report (site.diagnose offset t misspelled))) :
    ∀ act ∈ site.check raw offset, P act := by
  intro act hact
  rw [check] at hact
  rcases List.mem_cons.mp hact with rfl | hact
  · exact hquery _
  · split at hact
    · next misspelled _ =>
      split at hact
      · rcases List.mem_append.mp hact with hact | hact
        · obtain ⟨record, hrecord, rfl⟩ := List.mem_map.mp hact
          exact hlog record hrecord
        · obtain rfl := List.mem_singleton.mp hact
          exact hreport _ misspelled
      · cases hact
    · cases hact

/-- What holds of the check of any piece at an offset holds of the check of comments there. In the
source the offset is that of the token the comments hang on. -/
theorem forall_mem_checkComments {offset : Int} (hseek : ∀ comment, P (.seek comment))
    (hcheck : ∀ raw, ∀ act ∈ site.check raw offset, P act) (comments : List Text) :
    ∀ act ∈ (site.checkComments options offset comments).1, P act := by
  induction comments with
  | nil => simp [checkComments]
  | cons comment rest ih =>
    intro act hact
    rw [checkComments] at hact
    split at hact
    · obtain rfl := List.mem_singleton.mp hact
      exact hseek comment
    · rcases List.mem_cons.mp hact with rfl | hact
      · exact hseek comment
      · rcases List.mem_append.mp hact with hact | hact
        · split at hact
          · exact hcheck comment act hact
          · cases hact
        · exact ih act hact

/-- A token is checked at its offset and at its start, and nowhere else: its comments at the one and
its text at the other. -/
theorem forall_mem_inspect {t : Token} (hseek : ∀ comment, P (.seek comment))
    (hcheck : ∀ raw, ∀ offset ∈ [t.offset, t.start], ∀ act ∈ site.check raw offset, P act) :
    ∀ act ∈ (site.inspect options t).1, P act := by
  have hcomments : ∀ act ∈ (site.checkComments options t.offset t.comments).1, P act :=
    forall_mem_checkComments hseek (fun raw => hcheck raw _ (by simp)) _
  intro act hact
  rw [inspect] at hact
  generalize site.checkComments options t.offset t.comments = checked at hcomments hact
  obtain ⟨acts, suppressed⟩ := checked
  cases suppressed with
  | true => exact hcomments act hact
  | false =>
    rcases List.mem_append.mp hact with hact | hact
    · exact hcomments act hact
    · split at hact
      · exact hcheck t.text _ (by simp) act hact
      · cases hact

/-- What holds of all that the check of each token below a row does, and of what was done before,
holds of all that the walk does. -/
theorem forall_mem_traverseAll (row : List Token)
    (h : ∀ t ∈ Token.descendantsAll row, ∀ act ∈ (site.inspect options t).1, P act)
    {acts : Array Act} (hacts : ∀ act ∈ acts.toList, P act) :
    ∀ act ∈ (Token.traverseAll (site.visitor options) acts row).toList, P act := by
  -- on the row, with what was done before it; what is below a token that is skipped is not done
  induction row using Token.rowRec generalizing acts with
  | nil => exact hacts
  | cons t rest hbelow hbehind =>
    rw [Token.descendantsAll_cons] at h
    have hown : ∀ act ∈ (acts ++ (site.inspect options t).1).toList, P act := by
      intro act hact
      rw [Array.toList_appendList, List.mem_append] at hact
      rcases hact with hact | hact
      · exact hacts act hact
      · exact h t List.mem_cons_self act hact
    have hchildren := hbelow
      (fun d hd => h d (List.mem_cons_of_mem _ (List.mem_append_left _ hd))) hown
    have hrest : ∀ d ∈ Token.descendantsAll rest, ∀ act ∈ (site.inspect options d).1, P act :=
      fun d hd => h d (List.mem_cons_of_mem _ (List.mem_append_right _ hd))
    rw [Token.traverseAll]
    refine hbehind hrest ?_
    have hvisit : site.visitor options acts t
        = (acts ++ (site.inspect options t).1, (site.inspect options t).2) := rfl
    cases hgo : (site.inspect options t).2 with
    | skipChildren =>
      rw [Token.traverse_of_skip (hgo ▸ hvisit)]
      exact hown
    | visitChildren =>
      rw [Token.traverse_of_visit (hgo ▸ hvisit)]
      exact hchildren

/-- What holds of all that the check of each token of a tree does holds of the check of the tree. -/
theorem forall_mem_checkTree {tree : Tree}
    (h : ∀ t ∈ tree.descendants, ∀ act ∈ (site.inspect options t).1, P act) :
    ∀ act ∈ site.checkTree options tree, P act := by
  rw [checkTree, Tree.walk_eq]
  exact forall_mem_traverseAll tree.roots h (by simp)

/-! ## What a check does in its source -/

/-- What an act may be in the check of a source: if it is a finding, one of spelling that stands at
an offset, and no record, since only an offset beyond the source is recorded. -/
def Sound (source : Text) : Act → Prop
  | .report d => d.code = Rule.misspelledWord.code ∧ ∃ offset, d.IsAt source offset
  | .log _ => False
  | .query _ | .seek _ => True

/-- A check at an offset of the source: the finding stands there, with the line and the column that
the offset has. -/
theorem sound_check {source : Text} {filePath : String} {oracle : Oracle} {offset : Int}
    (h : source.HasOffset offset) (raw : Text) :
    ∀ act ∈ (⟨filePath, LineIndex.ofText source, oracle⟩ : Site).check raw offset,
      Sound source act := by
  obtain ⟨n, rfl⟩ := Int.eq_ofNat_of_zero_le h.1
  have hn : n ≤ source.length := Int.ofNat_le.mp h.2
  refine forall_mem_check (fun _ => trivial) ?_ ?_
  · intro record hrecord
    rw [records] at hrecord
    simp only [LineIndex.lineColumn?_ofText hn] at hrecord
    cases hrecord
  · intro t misspelled
    exact ⟨Diagnostic.code_placed _ _, n, Rule.isAt_finding _ _ _ hn⟩

/-- **One tree.** All that happens in the check of a source's own tree is in its place, since all
offsets in that tree are offsets of the source. -/
theorem sound_checkTree {source : Text} {lexemes : List Lexeme}
    (h : Lexeme.Spelling source lexemes) (filePath : String) (oracle : Oracle) :
    ∀ act ∈ (⟨filePath, LineIndex.ofText source, oracle⟩ : Site).checkTree options
      (Tree.ofLexemes source lexemes), Sound source act := by
  refine forall_mem_checkTree fun t ht => forall_mem_inspect (fun _ => trivial) ?_
  intro raw offset hoffset
  refine sound_check ?_ raw
  rcases List.mem_cons.mp hoffset with rfl | hoffset
  · exact Tree.hasOffset_of_mem_fragments h ht t.offset_mem_fragments
  · obtain rfl := List.mem_singleton.mp hoffset
    obtain ⟨text, hstart⟩ := t.start_mem_fragments
    exact Tree.hasOffset_of_mem_fragments h ht hstart

end Site

/-! ## Outcomes -/

/-- The findings of an outcome are in their places, and the report has them all. -/
structure Outcome.Sited (o : Outcome) (source : Text) (report : Option Report) : Prop where
  /-- Every finding stands at an offset of the source. -/
  placed : ∀ d ∈ o.diagnostics, ∃ offset, d.IsAt source offset
  /-- Nothing is said in the log about a finding without a place. -/
  silent : ∀ record ∈ o.log, record.level ≠ .warning
  /-- What is misspelled comes first, and what was wrong in parsing behind it. -/
  ordered : ∃ spelling parsing, o.diagnostics = spelling ++ parsing
    ∧ (∀ d ∈ spelling, d.code = Rule.misspelledWord.code)
    ∧ ∀ d ∈ parsing, d.code = Rule.tokenizeError.code
  /-- The report got the same findings in the same order. -/
  reported : o.report = report.map fun r => o.diagnostics.foldl Report.emit r

/-- What was wrong in parsing stands where reading failed, at the latest at the end of the
source. -/
theorem isAt_failureDiagnostic (source : Text) (filePath : String) (failure : Failure) :
    (Parsed.failureDiagnostic filePath (LineIndex.ofText source) failure).IsAt source
      (min failure.shownAt source.length) :=
  Rule.isAt_finding _ _ _ (Nat.min_le_right _ _)

variable {source : Text} {lexing : Lexing}

/-- A parsed source is checked in its places, however far its lexemes go. What was wrong in parsing
it comes last and has a place of its own. -/
theorem sited_checkParsed (h : Lexeme.Spelling source lexing.lexemes) (oracle : Oracle)
    (options : Options) (report : Option Report) (filePath : String) :
    (checkParsed oracle options report (Parsed.ofLexing source filePath lexing)).Sited source
      report := by
  have hsound : ∀ act ∈ (⟨filePath, LineIndex.ofText source, oracle⟩ : Site).checkTree options
      (Tree.ofLexemes source lexing.lexemes), Site.Sound source act :=
    Site.sound_checkTree h filePath oracle
  have hfound := diagnostics_checkParsed oracle options report
    (Parsed.ofLexing source filePath lexing)
  -- of what the walk does, only what it reports is a finding
  have hspelling : ∀ d ∈ Act.diagnostics
      ((⟨filePath, LineIndex.ofText source, oracle⟩ : Site).checkTree options
        (Tree.ofLexemes source lexing.lexemes)), Site.Sound source (.report d) := by
    intro d hd
    obtain ⟨act, hact, hreport⟩ := List.mem_filterMap.mp hd
    cases act with
    | report d' =>
      cases hreport
      exact hsound _ hact
    | seek _ | query _ | log _ => cases hreport
  -- a failure in reading is told by a rule of its own, at an offset of the source
  have hparsing : ∀ d ∈ (Parsed.ofLexing source filePath lexing).diagnostics,
      d.code = Rule.tokenizeError.code ∧ ∃ offset, d.IsAt source offset := by
    intro d hd
    obtain ⟨failure, -, rfl⟩ := List.mem_map.mp hd
    exact ⟨Diagnostic.code_placed _ _, _, isAt_failureDiagnostic source filePath failure⟩
  refine ⟨?_, ?_, ⟨_, _, hfound, fun d hd => (hspelling d hd).1, fun d hd => (hparsing d hd).1⟩, ?_⟩
  · intro d hd
    rw [hfound] at hd
    rcases List.mem_append.mp hd with hd | hd
    · exact (hspelling d hd).2
    · exact (hparsing d hd).2
  · -- nothing is recorded at all
    intro record hrecord
    obtain ⟨act, hact, hlog⟩ := List.mem_filterMap.mp hrecord
    cases act with
    | log record' => exact absurd (hsound _ hact) id
    | seek _ | query _ | report _ => cases hlog
  · rw [checkParsed_reportedTo]
    rfl

/-- **Findings stand in the source.** Whatever source is checked, by whatever oracle and with
whatever options, every finding has an offset of the source, and a line and column that lead back to
it; what is misspelled comes first, and a report gets the same findings. The same holds of any
lexing that spells the source as far as it got, with any failure behind it. -/
theorem checkSource_sited (oracle : Oracle) (options : Options) (report : Option Report)
    (source : Text) (filePath : String) :
    (checkSource oracle options report source filePath).Sited source report
      ∧ ∀ lexing : Lexing, Lexeme.Spelling source lexing.lexemes →
        (checkParsed oracle options report (Parsed.ofLexing source filePath lexing)).Sited source
          report := by
  refine ⟨?_, fun lexing h => sited_checkParsed h oracle options report filePath⟩
  have hparsed := sited_checkParsed (lex_spelling source) oracle options report filePath
  refine ⟨hparsed.placed, ?_, hparsed.ordered, hparsed.reported⟩
  intro record hrecord
  rcases List.mem_append.mp hrecord with hrecord | hrecord
  · -- what is said about a failure is not loud
    obtain ⟨failure, -, rfl⟩ := List.mem_map.mp hrecord
    simp [Parsed.failureRecord]
  · exact hparsed.silent record hrecord

/-- A source that is checked, and a lexing whose failure lies beyond it. -/
theorem checkSource_sited_beyond :
    let oracle : Oracle := ⟨fun t _ => some ⟨0, t.length, Nat.zero_le _⟩, fun _ _ => none⟩
    let lexing : Lexing := ⟨[⟨.name, "teh".toList, 2⟩], some (.strayDedent 9 4)⟩
    (checkSource oracle {} (some {}) "# a\n $teh".toList "m.py").Sited "# a\n $teh".toList (some {})
      ∧ (checkParsed oracle {} none (Parsed.ofLexing "\n teh".toList "m.py" lexing)).Sited
        "\n teh".toList none := by
  intro oracle lexing
  refine ⟨(checkSource_sited oracle {} _ _ _).1,
    (checkSource_sited oracle {} _ _ _).2 lexing ⟨?_, ?_⟩⟩
  · decide
  · simp [lexing, Lexeme.isLayout, Lexeme.Spells, Lexeme.stop, Text.slice]

end Lint

end Orthography
