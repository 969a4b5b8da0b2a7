/-
What a marker behind code switches off.

A comment behind code hangs on the first token of its logical line. If it holds the marker, the
tokens of the line and of the blocks that the line introduces are not asked about, and neither are
the comments before them, but for those before the first token of the line. About all else the
questions are the same as with any other comment in its place. Main statement:
`Lint.questions_of_marker_behind_code`.

For the second half two runs that differ in this one comment are followed side by side. They never
differ in more than blanks and what trails the first token of the line (`Builder.Alike`), and a
token outside the scope of the line lies below no token of the scope.
-/
import Mathlib.Data.List.Forall2
import Orthography.Proofs.Lint.Questions
import Orthography.Proofs.Tree.Scope

set_option autoImplicit false

namespace Orthography

/-! ## Builders that differ in the comments of one token -/

/-- Entries that differ in blanks at most. -/
structure Entry.Alike (d e : Entry) : Prop where
  id : d.id = e.id
  owner : d.owner = e.owner
  kind : d.kind = e.kind
  text : d.text = e.text
  comments : commentsOf d.leading = commentsOf e.leading

theorem Entry.Alike.refl (e : Entry) : e.Alike e := ⟨rfl, rfl, rfl, rfl, rfl⟩

namespace Builder

/-- Builders that differ at most in blanks and in the comments that trail the token `first`. -/
structure Alike (first : Nat) (b c : Builder) : Prop where
  entries : List.Forall₂ Entry.Alike b.entries c.entries
  trailing : ∀ n, n ≠ first → commentsOf (b.trailingOf n) = commentsOf (c.trailingOf n)
  waiting : commentsOf b.waiting = commentsOf c.waiting
  blocks : b.blocks = c.blocks
  brackets : b.brackets = c.brackets
  head : b.head = c.head
  lastHead : b.lastHead = c.lastHead
  codeOnLine : b.codeOnLine = c.codeOnLine

variable {first : Nat} {b c : Builder}

/-- As alike builders have as many entries, they give the next token the same number. -/
theorem Alike.nextId (h : Alike first b c) : b.nextId = c.nextId := by
  have hentries := h.entries
  rw [Builder.nextId, Builder.nextId]
  revert hentries
  generalize b.entries = fed, c.entries = fed'
  intro hentries
  cases hentries with
  | nil => rfl
  | cons hnewest _ => exact congrArg (· + 1) hnewest.id

theorem Alike.ownerOfNext (h : Alike first b c) : b.ownerOfNext = c.ownerOfNext := by
  rw [Builder.ownerOfNext, Builder.ownerOfNext, blockOwner, blockOwner, h.brackets, h.head,
    h.blocks]

/-- A token that both get leaves them alike: it takes along what waits in each of them, and of that
the comments are the same. -/
theorem Alike.addToken (h : Alike first b c) (kind : TokenKind) (text : Text) (offset : Int) :
    Alike first (b.addToken kind text offset) (c.addToken kind text offset) where
  entries := .cons ⟨h.nextId, h.ownerOfNext, rfl, rfl, h.waiting⟩ h.entries
  trailing := h.trailing
  waiting := rfl
  blocks := h.blocks
  brackets := by simp only [Builder.addToken, h.nextId, h.brackets]
  head := by simp only [Builder.addToken, h.nextId, h.brackets, h.head]
  lastHead := h.lastHead
  codeOnLine := rfl

/-- Pieces that trail a token come behind those that did so before. -/
theorem trailingOf_of_append {d : Builder} {head : Nat} {pieces : List Trivia}
    (h : d.trailing = (pieces.map (head, ·)).reverse ++ b.trailing) (n : Nat) :
    d.trailingOf n = b.trailingOf n ++ if head = n then pieces else [] := by
  rw [trailingOf, h, List.filter_append, List.map_append, List.reverse_append, trailingOf]
  congr 1
  split
  · next heq => simp [heq, List.filter_map, Function.comp_def]
  · next hne => simp [hne, List.filter_map, Function.comp_def]

/-- A piece of trivia that both get goes the same way in both, behind code or to what waits. -/
theorem Alike.addTrivia (h : Alike first b c) (piece : Trivia) :
    Alike first (b.addTrivia piece) (c.addTrivia piece) := by
  have hwaiting : commentsOf (b.waiting ++ [piece]) = commentsOf (c.waiting ++ [piece]) := by
    rw [commentsOf_append, commentsOf_append, h.waiting]
  rw [Builder.addTrivia, Builder.addTrivia, h.codeOnLine, h.head]
  split
  · exact h
  split
  · split
    · next head _ =>
      refine { h with trailing := fun n hn => ?_, waiting := rfl, head := rfl, codeOnLine := rfl }
      have hmoved : commentsOf (b.trailingOf n ++ if head = n then b.waiting ++ [piece] else [])
          = commentsOf (c.trailingOf n ++ if head = n then c.waiting ++ [piece] else []) := by
        rw [commentsOf_append, commentsOf_append, h.trailing n hn]
        split
        · rw [hwaiting]
        · rfl
      exact (congrArg commentsOf (trailingOf_of_append rfl n)).trans
        (hmoved.trans (congrArg commentsOf (trailingOf_of_append rfl n)).symm)
    · exact { h with waiting := hwaiting, head := rfl, codeOnLine := rfl }
  · exact { h with waiting := hwaiting, head := rfl, codeOnLine := rfl }

/-- Builders that are alike stay so, whatever is fed. -/
theorem Alike.step (h : Alike first b c) (e : Event) : Alike first (b.step e) (c.step e) := by
  cases e with
  | token kind text offset => exact h.addToken kind text offset
  | trivia kind text offset => exact h.addTrivia ⟨kind, text, offset⟩
  | endLine =>
    have hlast := congrArg₂ (· <|> ·) h.head h.lastHead
    exact { h with lastHead := hlast, head := rfl, brackets := rfl }
  | startBlock =>
    exact { h with blocks := by simp [Builder.step, blockOwner, h.lastHead, h.blocks] }
  | finishBlock => exact { h with blocks := congrArg List.tail h.blocks }
  | finish => exact { h with waiting := rfl }

theorem Alike.foldl (h : Alike first b c) (events : List Event) :
    Alike first (events.foldl Builder.step b) (events.foldl Builder.step c) := by
  induction events generalizing b c with
  | nil => exact h
  | cons e rest ih => exact ih (h.step e)

/-- A comment behind code changes what trails the line's first token, and leaves no comment to
wait. -/
theorem addTrivia_comment_eq (hhead : b.head = some first) (hcode : b.codeOnLine = true)
    (hwaiting : commentsOf b.waiting = []) (text : Text) (offset : Int) :
    ∃ trailing waiting,
      b.addTrivia ⟨.comment, text, offset⟩ = { b with trailing, waiting }
        ∧ (∀ n, n ≠ first → trailingOf { b with trailing, waiting } n = b.trailingOf n)
        ∧ commentsOf waiting = [] := by
  cases hempty : text.isEmpty with
  | true => exact ⟨b.trailing, b.waiting, by simp [addTrivia, hempty], fun _ _ => rfl, hwaiting⟩
  | false =>
    let piece : Trivia := ⟨.comment, text, offset⟩
    refine ⟨((b.waiting ++ [piece]).map (first, ·)).reverse ++ b.trailing, [],
      by simp [addTrivia, hempty, hhead, hcode, piece], fun n hn => ?_, rfl⟩
    rw [trailingOf_of_append rfl, if_neg (Ne.symm hn), List.append_nil]

/-- Whatever the comment behind code says, the builders behind it are alike. This is where the two
runs part, and the only place. -/
theorem alike_comment (hhead : b.head = some first) (hcode : b.codeOnLine = true)
    (hwaiting : commentsOf b.waiting = []) (text other : Text) (offset : Int) :
    Alike first (b.addTrivia ⟨.comment, text, offset⟩) (b.addTrivia ⟨.comment, other, offset⟩) := by
  obtain ⟨trailing, waiting, heq, hsame, hnone⟩ :=
    addTrivia_comment_eq hhead hcode hwaiting text offset
  obtain ⟨trailing', waiting', heq', hsame', hnone'⟩ :=
    addTrivia_comment_eq hhead hcode hwaiting other offset
  rw [heq, heq']
  exact
    { entries := List.forall₂_same.mpr fun e _ => .refl e
      trailing := fun n hn => congrArg commentsOf ((hsame n hn).trans (hsame' n hn).symm)
      waiting := hnone.trans hnone'.symm
      blocks := rfl
      brackets := rfl
      head := rfl
      lastHead := rfl
      codeOnLine := rfl }

/-! ## Trailing trivia stays -/

theorem mem_trailingOf {n : Nat} {piece : Trivia} :
    piece ∈ b.trailingOf n ↔ (n, piece) ∈ b.trailing := by
  simp [trailingOf]

theorem mem_trailing_step {p : Nat × Trivia} (h : p ∈ b.trailing) (e : Event) :
    p ∈ (b.step e).trailing := by
  cases e with
  | trivia kind text offset =>
    rw [step, addTrivia]
    split
    · exact h
    split
    · split
      · exact List.mem_append_right _ h
      · exact h
    · exact h
  | token | endLine | startBlock | finishBlock | finish => exact h

theorem mem_trailing_foldl {p : Nat × Trivia} (h : p ∈ b.trailing) (events : List Event) :
    p ∈ (events.foldl step b).trailing := by
  induction events generalizing b with
  | nil => exact h
  | cons e rest ih => exact ih (mem_trailing_step h e)

/-- A comment behind code trails the first token of its line for good. -/
theorem mem_trailingOf_comment {before after : List Event} {text : Text} {offset : Int}
    (hline : Event.codeLine? before = some first) (htext : text ≠ []) :
    (⟨.comment, text, offset⟩ : Trivia)
      ∈ (run (before ++ .trivia .comment text offset :: after)).trailingOf first := by
  obtain ⟨hhead, hcode, -⟩ := Event.codeLine?_eq_some hline
  rw [run, List.foldl_append, List.foldl_cons, mem_trailingOf]
  refine mem_trailing_foldl ?_ after
  have hempty : text.isEmpty = false := by simpa using htext
  rw [run] at hhead hcode
  simp [step, addTrivia, hempty, hhead, hcode]

end Builder

/-! ## Tokens outside the scope -/

namespace Builder

variable {first : Nat} {b c : Builder}

/-- But for the token `first`, entries that are alike have the same comments in both builders. -/
theorem Alike.remarks_bare (h : Alike first b c) {d e : Entry} (hentry : d.Alike e)
    (hid : d.id ≠ first) : (b.bare d).remarks = (c.bare e).remarks := by
  have htrailing := h.trailing d.id hid
  rw [Token.remarks, Token.remarks]
  change (commentsOf d.leading).map (Part.leading, ·)
      ++ (commentsOf (b.trailingOf d.id)).map (Part.trailing, ·)
    = (commentsOf e.leading).map (Part.leading, ·)
      ++ (commentsOf (c.trailingOf e.id)).map (Part.trailing, ·)
  rw [hentry.comments, htrailing, hentry.id]

theorem Alike.comments_bare (h : Alike first b c) {d e : Entry} (hentry : d.Alike e)
    (hid : d.id ≠ first) : (b.bare d).comments = (c.bare e).comments := by
  rw [← Token.map_snd_remarks, ← Token.map_snd_remarks, h.remarks_bare hentry hid]

/-- Above a token outside the scope stand the same comments in both builders. The one token whose
comments differ has the whole scope below it, so it is above no token outside. -/
theorem Alike.lineage {s : Scope} (h : Alike first b c) (hscope : Scope.Fits first s b)
    (hfirst : s.covers first = true) {owner : Option Nat} (howner : owner.any s.covers = false) :
    (b.lineage b.entries owner).map (·.2.comments)
      = (c.lineage c.entries owner).map (·.2.comments) := by
  have hbelow := hscope.below
  have hentries := h.entries
  revert hbelow hentries
  generalize b.entries = fed, c.entries = fed'
  intro hbelow hentries
  induction hentries generalizing owner with
  | nil => cases owner <;> rfl
  | @cons d e older older' hentry _ ih =>
    have ih := fun {owner} howner =>
      @ih owner howner fun e he => hbelow e (List.mem_cons_of_mem _ he)
    cases owner with
    | none => simp
    | some n =>
      rw [Builder.lineage, Builder.lineage, ← hentry.id]
      split
      · next hid =>
        -- what the owner lies below is outside as well, else the owner would be in the scope
        have hout : s.covers n = false := howner
        have habove : d.owner.any s.covers = false := by
          rw [Bool.eq_false_iff]
          intro hin
          rw [← hid, hbelow d List.mem_cons_self hin] at hout
          cases hout
        have hne : d.id ≠ first := by
          intro heq
          rw [← hid, heq, hfirst] at hout
          cases hout
        rw [List.map_cons, List.map_cons, h.comments_bare hentry hne, ih habove, hentry.owner]
      · exact ih howner

end Builder

namespace Lint

namespace Options

variable {options : Options}

/-- Whether a marker stands above a token depends on the comments there. -/
theorem any_stopsAt_congr (options : Options) {row row' : List (Nat × Token)}
    (h : row.map (·.2.comments) = row'.map (·.2.comments)) :
    row.any (options.stopsAt ·.2) = row'.any (options.stopsAt ·.2) := by
  have hany := congrArg (List.any · fun comments => comments.any options.marks) h
  rw [List.any_map, List.any_map] at hany
  exact hany

/-- The questions about a place depend on the comments above it, and on the token's own comments,
kind and text. -/
theorem questionsAt_congr {p q : Place} (hnumber : p.number = q.number)
    (habove : p.above.map (·.2.comments) = q.above.map (·.2.comments))
    (hremarks : p.token.remarks = q.token.remarks) (hkind : p.token.kind = q.token.kind)
    (htext : p.token.text = q.token.text) : options.questionsAt p = options.questionsAt q := by
  have hcomments : p.token.comments = q.token.comments := by
    rw [← Token.map_snd_remarks, ← Token.map_snd_remarks, hremarks]
  have hmarked := any_stopsAt_congr options habove
  rw [questionsAt, questionsAt, stopsAt, stopsAt, hmarked, hremarks, hnumber, hcomments, hkind,
    htext]

/-- Of the comments up to the first marker, those before the token are the ones up to the first
marker before it. -/
theorem filter_leading_takeWhile (marks : Text → Bool) (leading trailing : List Text) :
    (((leading.map (Part.leading, ·) ++ trailing.map (Part.trailing, ·)).takeWhile
        (!marks ·.2)).filter (·.1 = .leading))
      = (leading.takeWhile (!marks ·)).map (Part.leading, ·) := by
  induction leading with
  | nil =>
    refine List.filter_eq_nil_iff.mpr fun r hr => ?_
    obtain ⟨comment, -, rfl⟩ := List.mem_map.mp (List.takeWhile_subset _ hr)
    simp
  | cons comment rest ih =>
    rw [List.map_cons, List.cons_append, List.takeWhile_cons, List.takeWhile_cons]
    cases marks comment with
    | true => rfl
    | false => exact congrArg ((Part.leading, comment) :: ·) ih

/-- The questions about the comments before a token do not depend on what trails it. Comments are
gone through in order, so a marker behind the token cannot switch off one before it. -/
theorem filter_leading_questionsAt (options : Options) (p : Place) :
    (options.questionsAt p).filter (·.part = .leading)
      = if p.above.any (options.stopsAt ·.2) then []
        else if options.checkComments then
          ((commentsOf p.token.leading).takeWhile (!options.marks ·)).map fun comment =>
            ⟨p.number, .leading, Prose.ofRaw comment⟩
        else [] := by
  rw [questionsAt]
  split
  · rfl
  have htext : ∀ own : Bool, (if own then [(⟨p.number, .text, Prose.ofRaw p.token.text⟩ : Question)]
      else []).filter (·.part = .leading) = [] := by
    intro own
    cases own <;> rfl
  rw [List.filter_append, htext, List.append_nil]
  split
  · rw [List.filter_map]
    change List.map _ (((p.token.remarks).takeWhile _).filter (·.1 = .leading)) = _
    rw [Token.remarks, filter_leading_takeWhile, List.map_map]
    rfl
  · rfl

end Options

/-! ## A scope with a marker, and all else -/

/-- Is the question about something outside the scope of the line that begins with the token
`first`, or about a comment before that token? -/
def Question.isOutside (scope : List Nat) (first : Nat) (q : Question) : Bool :=
  !scope.contains q.token || (q.token = first && q.part = .leading)

/-- Of the questions about the first token of the line those about the comments before it are
outside. -/
theorem filter_isOutside_of_first {options : Options} {scope : List Nat} {first : Nat} {p : Place}
    (hin : scope.contains first = true) (hp : p.number = first) :
    (options.questionsAt p).filter (Question.isOutside scope first)
      = (options.questionsAt p).filter (·.part = .leading) := by
  refine List.filter_congr fun q hq => ?_
  rw [Question.isOutside, Options.token_of_mem_questionsAt hq, hp, hin]
  simp

/-- Of the questions about another token of the scope none is outside. -/
theorem filter_isOutside_of_scope {options : Options} {scope : List Nat} {first : Nat} {p : Place}
    (hin : scope.contains p.number = true) (hp : p.number ≠ first) :
    (options.questionsAt p).filter (Question.isOutside scope first) = [] := by
  refine List.filter_eq_nil_iff.mpr fun q hq => ?_
  rw [Question.isOutside, Options.token_of_mem_questionsAt hq, hin]
  simp [hp]

/-- About two places the same is asked, as far as the questions are outside. -/
def Options.SameOutside (options : Options) (scope : List Nat) (first : Nat) (p q : Place) : Prop :=
  (options.questionsAt p).filter (Question.isOutside scope first)
    = (options.questionsAt q).filter (Question.isOutside scope first)

variable {options : Options} {first : Nat} {s : Scope} {b c : Builder}

/-- With a marker at its first token, nothing else of the scope is asked about: what the scope
covers lies below that token, where no walk comes. -/
theorem scope_of_mem_questions (hscope : Scope.Fits first s b)
    (hturn : Builder.InTurn [none] b.entries.reverse)
    (hstops : ∀ e ∈ b.entries, e.id = first → options.stopsAt (b.bare e) = true) (source : Text)
    (eofOffset : Int) {q : Question} (hq : q ∈ options.questions (b.tree source eofOffset))
    (hin : s.covers q.token = true) : q.token = first ∧ q.part ≠ .text := by
  rw [Options.questions, hscope.sound.places_tree hturn] at hq
  obtain ⟨p, hp, hq⟩ := List.mem_flatMap.mp hq
  have htoken := Options.token_of_mem_questionsAt hq
  rw [htoken] at hin
  rcases List.mem_append.mp hp with hp | hp
  · obtain ⟨e, he, rfl⟩ := List.mem_map.mp hp
    have he := List.mem_reverse.mp he
    by_cases hid : e.id = first
    · exact ⟨htoken.trans hid, Options.part_ne_text_of_stopsAt (hstops e he hid) hq⟩
    · -- the first token of the line stands above, with the marker
      rcases hscope.above e he hin with heq | habove
      · exact absurd heq hid
      · obtain ⟨owner, howner, hcovers⟩ := (Option.any_eq_true _ _).mp habove
        obtain ⟨d, hd, hdid, hmem⟩ := hscope.exists_first hcovers
        have hmarked : (b.placeOf e).above.any (options.stopsAt ·.2) = true := by
          rw [Builder.placeOf, howner]
          exact List.any_eq_true.mpr ⟨_, hmem, hstops d hd hdid⟩
        rw [Options.questionsAt_of_above hmarked] at hq
        cases hq
  · -- the end of the source is in no scope
    rw [List.mem_singleton.mp hp] at hin
    exact absurd (hscope.bound _ hin).2 (Nat.lt_irrefl _)

/-- What is asked about an entry outside the scope, and of the comments before the first token of
the scope, is the same for builders that are alike. -/
theorem sameOutside_placeOf (h : Builder.Alike first b c) (hscope : Scope.Fits first s b)
    (hfirst : s.covers first = true) {d e : Entry} (hd : d ∈ b.entries) (hentry : d.Alike e) :
    options.SameOutside s.tokens first (b.placeOf d) (c.placeOf e) := by
  rw [Options.SameOutside]
  have hnumber : (b.placeOf d).number = (c.placeOf e).number := hentry.id
  -- what lies outside the scope, and the first token of the scope, is owned by nothing in it
  have habove : d.owner.any s.covers = false →
      (b.placeOf d).above.map (·.2.comments) = (c.placeOf e).above.map (·.2.comments) := by
    intro howner
    rw [Builder.placeOf, Builder.placeOf, ← hentry.owner]
    exact h.lineage hscope hfirst howner
  by_cases hin : s.covers d.id = true
  · by_cases hid : d.id = first
    · have howner : d.owner.any s.covers = false := by
        rw [Bool.eq_false_iff]
        intro howner
        obtain ⟨owner, hsome, hcovers⟩ := (Option.any_eq_true _ _).mp howner
        have hlt := hscope.sound.owners d hd owner hsome
        have hle := (hscope.bound owner hcovers).1
        omega
      rw [filter_isOutside_of_first hfirst hid, filter_isOutside_of_first hfirst (hnumber ▸ hid),
        Options.filter_leading_questionsAt, Options.filter_leading_questionsAt,
        Options.any_stopsAt_congr options (habove howner), hnumber]
      have hcomments : commentsOf (b.placeOf d).token.leading
          = commentsOf (c.placeOf e).token.leading := hentry.comments
      rw [hcomments]
    · rw [filter_isOutside_of_scope (p := b.placeOf d) hin hid,
        filter_isOutside_of_scope (hnumber ▸ hin) (hnumber ▸ hid)]
  · have hid : d.id ≠ first := fun heq => hin (heq ▸ hfirst)
    have howner : d.owner.any s.covers = false := by
      rw [Bool.eq_false_iff]
      exact fun howner => hin (hscope.below d hd howner)
    have hsame : options.questionsAt (b.placeOf d) = options.questionsAt (c.placeOf e) :=
      Options.questionsAt_congr hnumber (habove howner) (h.remarks_bare hentry hid) hentry.kind
        hentry.text
    rw [hsame]

/-- At the end of the source the same is asked for builders that are alike. -/
theorem sameOutside_endOfSource (h : Builder.Alike first b c) (scope : List Nat)
    (eofOffset : Int) :
    options.SameOutside scope first
      ⟨b.entries.length, [], Token.endOfSource eofOffset b.waiting⟩
      ⟨c.entries.length, [], Token.endOfSource eofOffset c.waiting⟩ := by
  have hremarks : (Token.endOfSource eofOffset b.waiting).remarks
      = (Token.endOfSource eofOffset c.waiting).remarks :=
    congrArg (fun comments => comments.map (Part.leading, ·) ++ []) h.waiting
  exact congrArg _ (Options.questionsAt_congr h.entries.length_eq rfl hremarks rfl rfl)

/-- What is asked about all that lies outside the scope, and of the comments before the first token
of the scope, is the same for builders that are alike. It is compared place by place, as alike
builders have their entries in the same places. -/
theorem filter_isOutside_questions (h : Builder.Alike first b c) (hscope : Scope.Fits first s b)
    (hfirst : s.covers first = true) (hsound : c.Sound)
    (hturn : Builder.InTurn [none] b.entries.reverse)
    (hturn' : Builder.InTurn [none] c.entries.reverse) (source : Text) (eofOffset : Int) :
    (options.questions (b.tree source eofOffset)).filter (Question.isOutside s.tokens first)
      = (options.questions (c.tree source eofOffset)).filter
        (Question.isOutside s.tokens first) := by
  have hentries : List.Forall₂ (options.SameOutside s.tokens first)
      (b.entries.reverse.map b.placeOf) (c.entries.reverse.map c.placeOf) := by
    rw [List.forall₂_map_left_iff, List.forall₂_map_right_iff, List.forall₂_reverse_iff]
    have hmem := (List.forall₂_and_left _ _).mpr ⟨fun d (hd : d ∈ b.entries) => hd, h.entries⟩
    exact hmem.imp fun d e hde => sameOutside_placeOf h hscope hfirst hde.1 hde.2
  have hplaces := List.rel_append hentries
    (.cons (sameOutside_endOfSource h s.tokens eofOffset) .nil)
  rw [Options.questions, Options.questions, List.filter_flatMap, List.filter_flatMap,
    hscope.sound.places_tree hturn, hsound.places_tree hturn']
  rw [← List.forall₂_eq_eq_eq]
  exact List.rel_flatMap hplaces fun _ _ hsame => List.forall₂_eq_eq_eq ▸ hsame

/-! ## Runs -/

variable {before after : List Event} {comment : Text} {offset : Int}

/-- Behind a non-empty comment with the marker the line's first token has the marker, and it has it
in the end too, because what trails a token stays. -/
theorem stopsAt_of_comment (hline : Event.codeLine? before = some first)
    (hmarks : options.marks comment = true) (hcomment : comment ≠ []) :
    let b := Builder.run (before ++ .trivia .comment comment offset :: after)
    ∀ e ∈ b.entries, e.id = first → options.stopsAt (b.bare e) = true := by
  intro b e _ hid
  have hmem : (⟨.comment, comment, offset⟩ : Trivia) ∈ b.trailingOf e.id :=
    hid ▸ Builder.mem_trailingOf_comment hline hcomment
  have hcomments : comment ∈ (b.bare e).comments := by
    rw [Token.comments_eq, List.mem_append]
    refine Or.inr (List.mem_map.mpr ⟨_, List.mem_filter.mpr ⟨hmem, ?_⟩, rfl⟩)
    simp
  exact List.any_eq_true.mpr ⟨comment, hcomments, hmarks⟩

/-- Whatever a comment behind code says, the runs are alike. -/
theorem alike_run (hline : Event.codeLine? before = some first) (text other : Text) :
    Builder.Alike first (Builder.run (before ++ .trivia .comment text offset :: after))
      (Builder.run (before ++ .trivia .comment other offset :: after)) := by
  obtain ⟨hhead, hcode, hwaiting⟩ := Event.codeLine?_eq_some hline
  rw [Builder.run, Builder.run, List.foldl_append, List.foldl_append]
  exact (Builder.alike_comment hhead hcode hwaiting text other offset).foldl after

/-- The first token of the line is in its scope. -/
theorem first_mem_scope (hline : Event.codeLine? before = some first) (text : Text) :
    ((before ++ .trivia .comment text offset :: after).foldl (Scope.step first) {}).covers first
      = true := by
  obtain ⟨hhead, -, -⟩ := Event.codeLine?_eq_some hline
  rw [List.foldl_append]
  exact Scope.covers_foldl ((Scope.fits_run first before).begun hhead) _

/-- **A marker behind code.** Where blocks begin only between logical lines, a non-empty comment
with the marker behind code of a line switches off the questions about the line and the blocks that
it introduces, but for those about the comments before the line's first token. The other questions
are asked as with any other comment in its place. -/
theorem questions_of_marker_behind_code
    (hblocks : Event.blocksBetween false
      (before ++ .trivia .comment comment offset :: after) = true)
    (hline : Event.codeLine? before = some first) (hmarks : options.marks comment = true)
    (hcomment : comment ≠ []) (source : Text) (eofOffset : Int) :
    let fed (text : Text) : List Event := before ++ .trivia .comment text offset :: after
    let tree (text : Text) : Tree := (Builder.run (fed text)).tree source eofOffset
    let scope := Event.scope first (fed comment)
    (tree comment).descendants.map Token.event
        = (fed comment).filter Event.isToken ++ [.token .eof [] eofOffset]
      ∧ (∀ (site : Site) (text : Text), Act.queries (site.checkTree options (tree text))
        = (options.questions (tree text)).map (·.text))
      ∧ (∀ q ∈ options.questions (tree comment), q.token ∈ scope →
        q.token = first ∧ q.part ≠ .text)
      ∧ ∀ text, (options.questions (tree comment)).filter (Question.isOutside scope first)
        = (options.questions (tree text)).filter (Question.isOutside scope first) := by
  intro fed tree scope
  -- only the comment differs, and trivia has no part in where blocks begin
  have hordered : ∀ text, Layout.strayed {} (fed text) = false := by
    intro text
    have hsame : (fed text).filter (!·.isTrivia) = (fed comment).filter (!·.isTrivia) := by
      simp [fed, Event.isTrivia]
    refine Event.strayed_of_blocksBetween (by simp) ?_
    rw [← Event.blocksBetween_filter] at hblocks ⊢
    exact (congrArg (Event.blocksBetween false) hsame).trans hblocks
  have hturn : ∀ text, Builder.InTurn [none] (Builder.run (fed text)).entries.reverse :=
    fun text => (Builder.inTurn_run_iff _).mpr (hordered text)
  have hscope := Scope.fits_run first (fed comment)
  refine ⟨Event.descendants_run (hordered comment) source eofOffset,
    fun site text => site.queries_checkTree options (tree text), fun q hq hin => ?_, fun text => ?_⟩
  · exact scope_of_mem_questions hscope (hturn comment)
      (stopsAt_of_comment hline hmarks hcomment) source eofOffset hq (List.contains_iff_mem.mpr hin)
  · exact filter_isOutside_questions (alike_run hline comment text) hscope
      (first_mem_scope hline comment) (Builder.sound_run _) (hturn comment) (hturn text) source
      eofOffset

/-- A marker on the first physical line of a block's header, within an open bracket. -/
theorem questions_of_marker_behind_code_header :
    let word (c : Char) (offset : Int) : Event := .token .identifier [c] offset
    let options : Options := { suppressionMarker := "m" }
    let before : List Event := [.trivia .comment ['#'] 0, word 'a' 2, .token .operator ['('] 3]
    let after : List Event := [.trivia .newline ['\n'] 6, word 'b' 7, .token .operator [')'] 8,
      .endLine, .startBlock, word 'c' 10, .endLine, .finishBlock, word 'd' 12, .endLine]
    let fed (text : Text) : List Event := before ++ .trivia .comment text 4 :: after
    Event.blocksBetween false (fed ['#', 'm']) = true ∧ Event.codeLine? before = some 0
      ∧ options.marks ['#', 'm'] = true ∧ Event.scope 0 (fed ['#', 'm']) = [4, 3, 2, 1, 0]
      ∧ ∀ q ∈ options.questions ((Builder.run (fed ['#', 'm'])).tree [] 13),
        q.token ∈ [4, 3, 2, 1, 0] → q.token = 0 ∧ q.part ≠ .text := by
  intro word options before after fed
  have hblocks : Event.blocksBetween false (fed ['#', 'm']) = true := by decide
  have hline : Event.codeLine? before = some 0 := by decide
  have hmarks : options.marks ['#', 'm'] = true := by decide +kernel
  have hscope : Event.scope 0 (fed ['#', 'm']) = [4, 3, 2, 1, 0] := by decide
  refine ⟨hblocks, hline, hmarks, hscope, ?_⟩
  rw [← hscope]
  exact (questions_of_marker_behind_code hblocks hline hmarks (by simp) [] 13).2.2.1

/-- An empty comment leaves no trace, so one that holds the empty marker switches nothing off. Every
comment holds the empty marker, so with it the hypothesis that the comment is not empty cannot be
left out. -/
theorem questions_of_empty_marker :
    let options : Options := { suppressionMarker := "" }
    let before : List Event := [.token .identifier ['a'] 0]
    let events := before ++ .trivia .comment [] 1 :: [.endLine]
    let site : Site := ⟨"m.py", LineIndex.ofText ['a'], fun _ _ => none, fun _ _ => none⟩
    Event.blocksBetween false events = true ∧ Event.codeLine? before = some 0
      ∧ options.marks [] = true ∧ 0 ∈ Event.scope 0 events
      ∧ (⟨0, .text, Prose.ofRaw ['a']⟩ : Question)
        ∈ options.questions ((Builder.run events).tree ['a'] 1)
      ∧ Prose.ofRaw ['a']
        ∈ Act.queries (site.checkTree options ((Builder.run events).tree ['a'] 1)) := by
  intro options before events site
  have hquestion : (⟨0, .text, Prose.ofRaw ['a']⟩ : Question)
      ∈ options.questions ((Builder.run events).tree ['a'] 1) := by decide +kernel
  refine ⟨by decide, by decide, by decide +kernel, by decide, hquestion, ?_⟩
  rw [site.queries_checkTree]
  exact List.mem_map_of_mem hquestion

end Lint

end Orthography
