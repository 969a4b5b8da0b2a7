/-
Every comment and every fragment of a source is checked once.

A fragment passes four layers before the oracle is asked about it: lexemes become events, events a
tree, the tree is walked, and tokens are checked one by one. What is followed through them here is
the *subject* of a piece, the text it gives to check. The events of a source have the comments and
the fragments for subjects, the builder keeps every piece, and a check that no marker stops asks
about the subjects of all pieces in the tree. Main statement: `Parsed.queries_perm`.
-/
import Orthography.Lint.Run
import Orthography.Proofs.Lint.Reference
import Orthography.Proofs.Parse.Rewriting

set_option autoImplicit false

namespace Orthography

/-! ## What there is to check -/

namespace Lexeme

/-- The comments among lexemes. -/
def comments (lexemes : List Lexeme) : List Text :=
  (lexemes.filter (·.kind = .comment)).map (·.text)

/-- What is to be checked of a lexeme by itself: a name that is no reserved word, a literal without
the letters before it, and an error that is not blank. -/
def fragment? (x : Lexeme) : Option Text :=
  match x.kind with
  | .name => if keywords.contains x.text then none else some x.text
  | .string => some (x.text.dropWhile Char.isAlpha)
  | .error => if x.isBlankError then none else some x.text
  | _ => none

/-- What is to be checked of lexemes among which there is no mark for indentation. A dollar sign and
a name right behind it are one fragment, also where the name is a reserved word. -/
def fragments : List Lexeme → List Text
  | [] => []
  | [x] => x.fragment?.toList
  | x :: y :: rest =>
    if x.isDollar && y.names x.start then ('$' :: y.text) :: fragments rest
    else x.fragment?.toList ++ fragments (y :: rest)

/-- The comments and the fragments of lexemes, as the oracle is asked about them. -/
def subjects (lexemes : List Lexeme) : List Text :=
  (comments lexemes ++ fragments (lexemes.filter (!·.isLayout))).map Prose.ofRaw

end Lexeme

/-! ## Subjects of events -/

namespace Event

/-- The comment that the event feeds. -/
def comment? : Event → Option Text
  | .trivia .comment text _ => some text
  | _ => none

/-- The text of the token that the event feeds, if tokens of its kind are checked. -/
def ownText? : Event → Option Text
  | .token kind text _ => if kind.isCheckable then some text else none
  | _ => none

/-- The text that the event gives to check. -/
def subject? (e : Event) : Option Text := e.comment? <|> e.ownText?

/-- Comments and texts of tokens, apart. From here on the two are followed separately: comments
through the trivia, texts through the rewriting of tokens. -/
theorem filterMap_subject?_perm (events : List Event) :
    (events.filterMap subject?).Perm (events.filterMap comment? ++ events.filterMap ownText?) := by
  induction events with
  | nil => exact List.Perm.refl _
  | cons e rest ih =>
    -- an event gives a comment or the text of a token, never both
    cases hcomment : e.comment? with
    | some text =>
      have hown : e.ownText? = none := by
        cases e with
        | token kind text offset => simp [comment?] at hcomment
        | _ => rfl
      have hsubject : e.subject? = some text := by rw [subject?, hcomment]; rfl
      rw [List.filterMap_cons_some hsubject, List.filterMap_cons_some hcomment,
        List.filterMap_cons_none hown]
      exact ih.cons text
    | none =>
      have hsubject : e.subject? = e.ownText? := by rw [subject?, hcomment]; rfl
      rw [List.filterMap_cons_none hcomment]
      cases hown : e.ownText? with
      | none =>
        rw [List.filterMap_cons_none (hsubject.trans hown), List.filterMap_cons_none hown]
        exact ih
      | some text =>
        rw [List.filterMap_cons_some (hsubject.trans hown), List.filterMap_cons_some hown]
        exact (ih.cons text).trans List.perm_middle.symm

/-- Texts of tokens are found among the tokens. -/
theorem filterMap_ownText?_filter (events : List Event) :
    (events.filter isToken).filterMap ownText? = events.filterMap ownText? := by
  induction events with
  | nil => rfl
  | cons e rest ih =>
    cases e with
    | token kind text offset =>
      rw [List.filter_cons_of_pos rfl, List.filterMap_cons, List.filterMap_cons, ih]
    | _ => exact ih

end Event

namespace Lexeme

/-- What a lexeme's tokens give to check. Of a string with letters before its quote it is what
stands from the quote on. -/
theorem filterMap_ownText?_tokens (x : Lexeme) :
    x.tokens.filterMap Event.ownText? = x.fragment?.toList := by
  rw [tokens, fragment?]
  cases x.kind with
  | name =>
    by_cases hkeyword : keywords.contains x.text = true
    · simp only [if_pos hkeyword]
      rfl
    · simp only [if_neg hkeyword]
      rfl
  | string =>
    simp only [List.filterMap_append]
    split <;> rfl
  | error =>
    by_cases hblank : x.isBlankError = true
    · simp only [if_pos hblank]
      rfl
    · simp only [if_neg hblank]
      rfl
  | comment | lineBreak | newline | number | operator | indent | dedent => rfl

/-- The fragments are what the rewritten tokens give to check. -/
theorem filterMap_ownText?_rewriting (lexemes : List Lexeme) :
    (rewriting lexemes).filterMap Event.ownText? = fragments lexemes := by
  induction lexemes using rewriting.induct with
  | case1 => rfl
  | case2 x => rw [rewriting, fragments, filterMap_ownText?_tokens]
  | case3 x y rest hnames ih =>
    rw [rewriting, fragments, if_pos hnames, if_pos hnames, ← ih]
    rfl
  | case4 x y rest hnames ih =>
    rw [rewriting, fragments, if_neg hnames, if_neg hnames, List.filterMap_append, ih,
      filterMap_ownText?_tokens]

theorem comments_cons (x : Lexeme) (rest : List Lexeme) :
    comments (x :: rest) = comments [x] ++ comments rest := by
  simp only [comments, ← List.map_append, ← List.filter_append, List.singleton_append]

/-- A lexeme feeds a comment if it is one. -/
theorem filterMap_comment?_events (x : Lexeme) :
    x.events.filterMap Event.comment? = comments [x] := by
  rw [events, comments]
  cases hkind : x.kind with
  | string =>
    simp only [stringEvents_eq, List.filterMap_append]
    rw [List.filter_cons_of_neg (by simp [hkind])]
    split <;> rfl
  | error =>
    rw [List.filter_cons_of_neg (by simp [hkind])]
    by_cases hdollar : x.isDollar = true
    · simp only [if_pos hdollar]
      rfl
    · simp only [if_neg hdollar]
      rfl
  | comment =>
    rw [List.filter_cons_of_pos (by simp [hkind])]
    rfl
  | lineBreak | newline | name | number | operator | indent | dedent =>
    rw [List.filter_cons_of_neg (by simp [hkind])]
    rfl

theorem comments_singleton_of_ne {x : Lexeme} (h : x.kind ≠ .comment) : comments [x] = [] := by
  simp [comments, h]

end Lexeme

namespace Cursor

/-- The comments that are fed are those among the lexemes. White space before a lexeme and a dollar
sign that was kept back feed none. -/
theorem filterMap_comment?_events (c : Cursor) (length : Nat) (lexemes : List Lexeme) :
    (c.events length lexemes).filterMap Event.comment? = Lexeme.comments lexemes := by
  have hgap : ∀ (d : Cursor) (offset : Nat), (d.gap offset).filterMap Event.comment? = [] := by
    intro d offset
    rw [gap]
    split <;> rfl
  have hflush : ∀ d : Cursor, d.flush.1.filterMap Event.comment? = [] := by
    intro d
    rw [flush]
    split <;> rfl
  induction lexemes generalizing c with
  | nil =>
    rw [events, close, List.filterMap_append, hflush, hgap]
    rfl
  | cons x rest ih =>
    rw [events, List.filterMap_append, ih, Lexeme.comments_cons]
    congr 1
    cases hlayout : x.isLayout with
    | true => rw [c.feed_of_layout hlayout, x.filterMap_comment?_events]
    | false =>
      rcases c.feed_cases hlayout with ⟨d, -, hnames, hfeed⟩ | ⟨-, hblank, hfeed⟩ | ⟨-, -, hfeed⟩
      · have hname := (Lexeme.of_names hnames).1
        rw [hfeed, Lexeme.comments_singleton_of_ne (by simp [hname])]
        rfl
      · have herror := Lexeme.kind_of_isBlankError hblank
        rw [hfeed, hflush, Lexeme.comments_singleton_of_ne (by simp [herror])]
      · rw [hfeed, ← x.filterMap_comment?_events]
        simp only [List.filterMap_append, hflush, hgap, List.nil_append]

end Cursor

namespace Event

/-- The subjects of a source's events are its comments and fragments. -/
theorem subjects_ofLexemes_perm (source : Text) (lexemes : List Lexeme) :
    (((Event.ofLexemes source lexemes).filterMap subject?).map Prose.ofRaw).Perm
      (Lexeme.subjects lexemes) := by
  refine ((filterMap_subject?_perm _).map _).trans (List.Perm.of_eq ?_)
  rw [← filterMap_ownText?_filter, Event.tokens_ofLexemes, Lexeme.filterMap_ownText?_rewriting,
    Event.ofLexemes, Cursor.filterMap_comment?_events, Lexeme.subjects]

/-- Where every comment has text, no subject is lost with empty trivia. It would be lost in the tree
too, where empty trivia are not kept. -/
theorem filterMap_subject?_filter {events : List Event}
    (h : ∀ text ∈ events.filterMap comment?, text ≠ []) :
    (events.filter isPiece).filterMap subject? = events.filterMap subject? := by
  induction events with
  | nil => rfl
  | cons e rest ih =>
    have hrest : ∀ text ∈ rest.filterMap comment?, text ≠ [] := by
      intro text htext
      obtain ⟨d, hd, hsome⟩ := List.mem_filterMap.mp htext
      exact h text (List.mem_filterMap.mpr ⟨d, List.mem_cons_of_mem _ hd, hsome⟩)
    have ih := ih hrest
    cases hpiece : e.isPiece with
    | true => rw [List.filter_cons_of_pos hpiece, List.filterMap_cons, List.filterMap_cons, ih]
    | false =>
      -- an empty piece of trivia is no comment
      have hnone : e.subject? = none := by
        cases e with
        | token kind text offset => simp [isPiece] at hpiece
        | trivia kind text offset =>
          cases kind with
          | comment =>
            have hne := h text (List.mem_filterMap.mpr ⟨_, List.mem_cons_self, rfl⟩)
            simp [isPiece, hne] at hpiece
          | whitespace | newline => rfl
        | endLine | startBlock | finishBlock | finish => rfl
      rw [List.filter_cons_of_neg (by simp [hpiece]), List.filterMap_cons_none hnone, ih]

end Event

/-! ## Subjects of tokens -/

namespace Token

/-- What a token gives to check. -/
def subjects (t : Token) : List Text :=
  t.comments ++ if t.kind.isCheckable then [t.text] else []

theorem filterMap_subject?_trivia (pieces : List Trivia) :
    (pieces.map Trivia.event).filterMap Event.subject?
      = (pieces.filter (·.kind = .comment)).map (·.text) := by
  induction pieces with
  | nil => rfl
  | cons piece rest ih =>
    obtain ⟨kind, text, offset⟩ := piece
    rw [List.map_cons, List.filterMap_cons, ih]
    cases kind <;> rfl

/-- What a token gives to check is what its pieces give. -/
theorem subjects_perm (t : Token) : t.subjects.Perm (t.pieces.filterMap Event.subject?) := by
  have hown : [Event.token t.kind t.text t.offset].filterMap Event.subject?
      = if t.kind.isCheckable then [t.text] else [] := by
    cases hkind : t.kind.isCheckable <;>
      simp [Event.subject?, Event.comment?, Event.ownText?, hkind]
  rw [pieces, ← List.singleton_append, List.filterMap_append, List.filterMap_append,
    filterMap_subject?_trivia, filterMap_subject?_trivia, hown, subjects, comments, trivia,
    List.filter_append, List.map_append, List.append_assoc]
  exact List.Perm.append_left _ List.perm_append_comm

end Token

/-! ## Markers -/

/-- A text holds what stands in it in one piece. -/
theorem Text.holds_iff (part t : Text) : part.holds t = true ↔ part <:+: t := by
  induction t with
  | nil => simp [Text.holds]
  | cons c rest ih => rw [Text.holds, Bool.or_eq_true, ih, List.isPrefixOf_iff_prefix,
      List.infix_cons_iff]

theorem Text.trim_isInfix (blank : Char → Bool) (t : Text) : t.trim blank <:+: t := by
  have hsuffix : t.dropWhile blank <:+ t := List.dropWhile_suffix _
  -- blanks are dropped in front, then behind
  have hprefix : t.trim blank <+: t.dropWhile blank := by
    rw [Text.trim, ← List.reverse_suffix, List.reverse_reverse]
    exact List.dropWhile_suffix _
  exact hprefix.isInfix.trans hsuffix.isInfix

namespace Lint

open Spelling

/-- The marker stands in no comment of the lexemes. -/
def Options.Unmarked (options : Options) (lexemes : List Lexeme) : Prop :=
  ∀ comment ∈ Lexeme.comments lexemes, ¬ options.suppressionMarker.toList <:+: comment

/-- A comment in which the marker does not stand suppresses nothing. -/
theorem Options.marks_of_not_isInfix {options : Options} {comment : Text}
    (h : ¬ options.suppressionMarker.toList <:+: comment) : options.marks comment = false := by
  rw [marks, isSuppressed, Bool.eq_false_iff]
  intro hholds
  exact h (((Text.holds_iff _ _).mp hholds).trans (Text.trim_isInfix _ _))

/-! ## A check without markers -/

theorem Act.queries_visible (acts : List Act) : queries (visible acts) = queries acts := by
  induction acts with
  | nil => rfl
  | cons act rest ih =>
    cases act with
    | query t => exact congrArg (t :: ·) ih
    | seek | log | report => exact ih

theorem Act.queries_append (acts more : List Act) :
    queries (acts ++ more) = queries acts ++ queries more := List.filterMap_append

namespace Site

variable {site : Site} {options : Options}

/-- About a piece of text the oracle is asked once. -/
theorem queries_asked (site : Site) (raw : Text) (offset : Int) :
    Act.queries (site.asked raw offset) = [Prose.ofRaw raw] := by
  rw [asked]
  cases (site.oracle.firstMisspelling (Prose.ofRaw raw) 0).filter
    (·.start < (Prose.ofRaw raw).length) <;> rfl

theorem queries_flatMap_asked (site : Site) (raws : List Text) (offset : Int) :
    Act.queries (raws.flatMap (site.asked · offset)) = raws.map Prose.ofRaw := by
  induction raws with
  | nil => rfl
  | cons raw rest ih =>
    rw [List.flatMap_cons, Act.queries_append, queries_asked, ih, List.map_cons,
      List.singleton_append]

/-- Where no comment holds the marker, all that tokens give is checked. The recursion then goes
through the whole tree, so that its questions are those of the tokens in the order of the walk. -/
theorem queries_referenceAll (hcomments : options.checkComments = true)
    (htokens : options.checkTokens = true) {row : List Token}
    (h : ∀ t ∈ Token.descendantsAll row, t.comments.any options.marks = false) :
    Act.queries (site.referenceAll options row)
      = ((Token.descendantsAll row).flatMap Token.subjects).map Prose.ofRaw := by
  induction row using Token.rowRec with
  | nil => rfl
  | cons t rest hbelow hbehind =>
    rw [Token.descendantsAll_cons] at h ⊢
    have hbelow := hbelow fun d hd => h d (List.mem_cons_of_mem _ (List.mem_append_left _ hd))
    have hbehind := hbehind fun d hd => h d (List.mem_cons_of_mem _ (List.mem_append_right _ hd))
    have hmarks := h t List.mem_cons_self
    -- with no marker among them, all comments come before the first marker
    have hspared : t.comments.takeWhile (!options.marks ·) = t.comments := by
      rw [List.takeWhile_eq_self_iff]
      intro comment hcomment
      simpa using List.any_eq_false.mp hmarks comment hcomment
    have hown : Act.queries (if t.kind.isCheckable then site.asked t.text t.start else [])
        = (if t.kind.isCheckable then [t.text] else []).map Prose.ofRaw := by
      split
      · exact queries_asked site t.text t.start
      · rfl
    rw [referenceAll, reference_of_unmarked hmarks, hspared, if_pos hcomments, htokens,
      Bool.true_and]
    simp only [Act.queries_append, queries_flatMap_asked, hown, hbelow, hbehind, List.flatMap_cons,
      List.flatMap_append, List.map_append, Token.subjects, List.append_assoc]

end Site

end Lint

/-! ## Sources -/

open Lint

section Sources

variable {options : Options} {lexemes : List Lexeme}

/-- The pieces of a tree give the comments and fragments of its lexemes to check. The order is not
the same: the tree has comments where they hang, the lexemes where they stand. -/
theorem Tree.subjects_perm (source : Text)
    (hsolid : ∀ x ∈ lexemes, x.kind = .comment → x.text ≠ []) :
    (((Tree.ofLexemes source lexemes).descendants.flatMap Token.subjects).map Prose.ofRaw).Perm
      (Lexeme.subjects lexemes) := by
  -- the builder throws empty trivia away, and a comment is never empty
  have hcomments : ∀ text ∈ (Event.ofLexemes source lexemes).filterMap Event.comment?,
      text ≠ [] := by
    intro text htext
    rw [Event.ofLexemes, Cursor.filterMap_comment?_events] at htext
    obtain ⟨x, hx, rfl⟩ := List.mem_map.mp htext
    obtain ⟨hmem, hkind⟩ := List.mem_filter.mp hx
    exact hsolid x hmem (by simpa using hkind)
  have hpieces := (Tree.pieces_ofLexemes_perm source lexemes).filterMap Event.subject?
  rw [List.filterMap_flatMap, List.filterMap_append, Event.filterMap_subject?_filter hcomments]
    at hpieces
  have htokens : ((Tree.ofLexemes source lexemes).descendants.flatMap Token.subjects).Perm
      ((Event.ofLexemes source lexemes).filterMap Event.subject?) := by
    refine (List.Perm.flatMap_left _ fun t _ => t.subjects_perm).trans (hpieces.trans ?_)
    -- the end of the source gives nothing to check
    exact List.Perm.of_eq (List.append_nil _)
  exact (htokens.map _).trans (Event.subjects_ofLexemes_perm source lexemes)

/-- A comment in the tree is one of the lexemes. -/
theorem Tree.mem_comments {source : Text} {t : Token}
    (ht : t ∈ (Tree.ofLexemes source lexemes).descendants) {comment : Text}
    (hcomment : comment ∈ t.comments) : comment ∈ Lexeme.comments lexemes := by
  obtain ⟨piece, hpiece, rfl⟩ := List.mem_map.mp hcomment
  obtain ⟨htrivia, hkind⟩ := List.mem_filter.mp hpiece
  have hmem : piece.event ∈ t.pieces := by
    rw [Token.pieces, List.mem_append, List.mem_cons]
    rcases List.mem_append.mp htrivia with hleading | htrailing
    · exact Or.inl (List.mem_map_of_mem hleading)
    · exact Or.inr (Or.inr (List.mem_map_of_mem htrailing))
  have hfed := (Tree.pieces_ofLexemes_perm source lexemes).subset
    (List.mem_flatMap.mpr ⟨t, ht, hmem⟩)
  rw [← (Cursor.start source).filterMap_comment?_events source.length lexemes, List.mem_filterMap]
  refine ⟨piece.event, ?_, by simp_all [Trivia.event, Event.comment?]⟩
  rcases List.mem_append.mp hfed with hfed | hfed
  · exact (List.mem_filter.mp hfed).1
  · simp [Trivia.event] at hfed

/-- Where no comment holds the marker, the oracle is asked about each comment and each fragment of
the lexemes once, and about nothing else. -/
theorem Parsed.queries_perm (oracle : Spelling.Oracle) (report : Option Report) (source : Text)
    (filePath : String) {lexing : Lexing} (hcomments : options.checkComments = true)
    (htokens : options.checkTokens = true)
    (hsolid : ∀ x ∈ lexing.lexemes, x.kind = .comment → x.text ≠ [])
    (hmarker : options.Unmarked lexing.lexemes) :
    (checkParsed oracle options report (Parsed.ofLexing source filePath lexing)).queries.Perm
      (Lexeme.subjects lexing.lexemes) := by
  have hmarks : ∀ t ∈ (Tree.ofLexemes source lexing.lexemes).descendants,
      t.comments.any options.marks = false := by
    intro t ht
    rw [List.any_eq_false]
    intro comment hcomment
    simp [Options.marks_of_not_isInfix (hmarker comment (Tree.mem_comments ht hcomment))]
  have hqueries : (checkParsed oracle options report
      (Parsed.ofLexing source filePath lexing)).queries
        = ((Tree.ofLexemes source lexing.lexemes).descendants.flatMap Token.subjects).map
          Prose.ofRaw := by
    rw [Outcome.queries, checkParsed, ← Act.queries_visible, Site.visible_checkTree]
    exact Site.queries_referenceAll hcomments htokens hmarks
  rw [hqueries]
  exact Tree.subjects_perm source hsolid

/-- **Coverage.** With comments and tokens to be checked and no marker in a comment, the check of a
source asks about each comment and each fragment of its lexemes once, and about nothing else; so
does the check of a source parsed with any lexing whose comments have text. -/
theorem checkSource_queries_perm (oracle : Spelling.Oracle) (report : Option Report)
    (source : Text) (filePath : String) (hcomments : options.checkComments = true)
    (htokens : options.checkTokens = true) :
    (options.Unmarked (lex source).lexemes →
        (checkSource oracle options report source filePath).queries.Perm
          (Lexeme.subjects (lex source).lexemes))
      ∧ ∀ lexing : Lexing, (∀ x ∈ lexing.lexemes, x.kind = .comment → x.text ≠ []) →
        options.Unmarked lexing.lexemes →
          (checkParsed oracle options report
            (Parsed.ofLexing source filePath lexing)).queries.Perm
              (Lexeme.subjects lexing.lexemes) := by
  refine ⟨fun hmarker => ?_, fun lexing hsolid hmarker => ?_⟩
  · have hsolid : ∀ x ∈ (lex source).lexemes, x.kind = .comment → x.text ≠ [] := by
      intro x hx hkind
      exact (lex_solid source x hx (by simp [Lexeme.isLayout, hkind])).text
        (by simp [Lexeme.isLineEnd, hkind])
    exact Parsed.queries_perm oracle report source filePath hcomments htokens hsolid hmarker
  · exact Parsed.queries_perm oracle report source filePath hcomments htokens hsolid hmarker

/-- A reserved word behind a dollar sign, a literal with a letter, and a comment. -/
theorem checkSource_queries_perm_dollar :
    (checkSource ⟨fun _ _ => none, fun _ _ => none⟩ {} none "$if = u'teh' # x\n".toList
        "m.py").queries.Perm
      (["# x", "$if", "'teh'"].map fun s => Prose.ofRaw s.toList) := by
  have hmarker : Options.Unmarked {} (lex "$if = u'teh' # x\n".toList).lexemes := by
    unfold Options.Unmarked
    decide +kernel
  have hsubjects : Lexeme.subjects (lex "$if = u'teh' # x\n".toList).lexemes
      = ["# x", "$if", "'teh'"].map fun s => Prose.ofRaw s.toList := by decide +kernel
  rw [← hsubjects]
  exact (checkSource_queries_perm _ none _ "m.py" rfl rfl).1 hmarker

end Sources

end Orthography
