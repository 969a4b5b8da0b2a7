/-
Where a comment of the source is hung.

A comment behind code is meant to trail the first token of its logical line, and any other one to
lead the next token. Main statement, `parse_comment`: what decides is whether a token lies before
the comment with no line end between them (`Tree.HasCodeBefore`), that is, no lexeme for a line end.
A line that a backslash continues has none. So the rule in terms of the text of the row,
`Tree.HasCodeOnLine`, gives the same place unless the code stands before such a continuation and the
comment behind it.

The lexemes before the comment tell where its logical line and its row begin
(`Builder.ruled_feedAll`), and from there on the builder's notes decide.
-/
import Mathlib.Data.List.Lattice
import Orthography.Proofs.Lexeme.LineEnds
import Orthography.Proofs.Lint.Suppression
import Orthography.Proofs.Parse.Lines

set_option autoImplicit false

namespace Orthography

/-! ## Places of comments -/

namespace Lexeme

/-- The lexeme as a comment that was fed. -/
def remark (x : Lexeme) : Trivia := ⟨.comment, x.text, x.start⟩

/-- The beginning of the logical line behind one more lexeme. -/
def lineAfter (line : Nat) (x : Lexeme) : Nat := if x.kind = .newline then x.stop else line

/-- The beginning of the row behind one more lexeme, line ends of both kinds taken. -/
def rowAfter (row : Nat) (x : Lexeme) : Nat := if x.isLineEnd then x.stop else row

/-- Where the logical line begins that some lexemes leave open. -/
def lineStart (lexemes : List Lexeme) : Nat := lexemes.foldl lineAfter 0

/-- Where the row begins that some lexemes leave open. -/
def rowStart (lexemes : List Lexeme) : Nat := lexemes.foldl rowAfter 0

end Lexeme

namespace Tree

/-- The token is the first one of the tree that does not begin before an offset. -/
def IsFirstFrom (tree : Tree) (offset : Nat) (t : Token) : Prop :=
  (offset : Int) ≤ t.offset
    ∧ ∀ u ∈ tree.descendants, (offset : Int) ≤ u.offset → t.offset ≤ u.offset

/-- The comment `x` trails the first token of its logical line, where `before` are the lexemes
before it. -/
def Trails (tree : Tree) (before : List Lexeme) (x : Lexeme) : Prop :=
  ∃ t ∈ tree.descendants, tree.IsFirstFrom (Lexeme.lineStart before) t ∧ x.remark ∈ t.trailing

/-- The comment leads the next token, which is the end of the source if there is no other. -/
def Leads (tree : Tree) (x : Lexeme) : Prop :=
  ∃ t ∈ tree.descendants, tree.IsFirstFrom x.stop t ∧ x.remark ∈ t.leading

/-- A token ends before `x`, and no lexeme between them is a line end. -/
def HasCodeBefore (tree : Tree) (before : List Lexeme) (x : Lexeme) : Prop :=
  ∃ t ∈ tree.descendants, (Lexeme.rowStart before : Int) ≤ t.offset ∧ t.stop ≤ x.start

/-- A token ends before `x`, and there is no line feed between them. -/
def HasCodeOnLine (tree : Tree) (x : Lexeme) : Prop :=
  ∃ t ∈ tree.descendants, t.stop ≤ x.start ∧ '\n' ∉ tree.source.slice t.stop.toNat x.start

/-- The comment `x` is where the text of its row says: at the first token of its logical line if a
token ends before it on its row, and otherwise before the next token. -/
def PlacesByText (tree : Tree) (before : List Lexeme) (x : Lexeme) : Prop :=
  (tree.Trails before x ↔ tree.HasCodeOnLine x) ∧ (¬ tree.HasCodeOnLine x → tree.Leads x)

/-- The comment `x` is where the line ends before it say. -/
structure PlacesByLineEnds (tree : Tree) (before : List Lexeme) (x : Lexeme) : Prop where
  trails : tree.Trails before x ↔ tree.HasCodeBefore before x
  leads : tree.Leads x ↔ ¬ tree.HasCodeBefore before x
  /-- The text of the row says the same, unless the code is parted from the comment by a line feed
  that is no line end. -/
  byText : tree.PlacesByText before x ↔ (tree.HasCodeBefore before x → tree.HasCodeOnLine x)

section Decidable

variable (tree : Tree) (before : List Lexeme) (x : Lexeme)

instance (offset : Nat) (t : Token) : Decidable (tree.IsFirstFrom offset t) :=
  inferInstanceAs (Decidable (_ ∧ _))

instance : Decidable (tree.Trails before x) := inferInstanceAs (Decidable (∃ t ∈ _, _))

instance : Decidable (tree.Leads x) := inferInstanceAs (Decidable (∃ t ∈ _, _))

instance : Decidable (tree.HasCodeBefore before x) := inferInstanceAs (Decidable (∃ t ∈ _, _))

instance : Decidable (tree.HasCodeOnLine x) := inferInstanceAs (Decidable (∃ t ∈ _, _))

instance : Decidable (tree.PlacesByText before x) := inferInstanceAs (Decidable (_ ∧ _))

end Decidable

end Tree

/-! ## Lexemes that end no line -/

theorem Lexeme.isQuiet_events {x : Lexeme} (hx : x.isLineEnd = false) :
    ∀ e ∈ x.events, e.isQuiet = true := by
  unfold events
  cases hkind : x.kind with
  | newline | lineBreak => simp [isLineEnd, hkind] at hx
  | string =>
    dsimp only
    rw [stringEvents_eq]
    split <;> simp [Event.isQuiet]
  | error => by_cases hdollar : x.isDollar = true <;> simp [hdollar, Event.isQuiet]
  | comment | name | number | operator | indent | dedent => simp [Event.isQuiet]

namespace Cursor

variable {c : Cursor} {source : Text}

theorem isQuiet_close (c : Cursor) (offset : Nat) : ∀ e ∈ c.close offset, e.isQuiet = true := by
  intro e he
  rcases List.mem_append.mp he with he | he
  · exact forall_mem_flush (P := (Event.isQuiet · = true)) (fun _ => rfl) c e he
  · exact forall_mem_gap (P := (Event.isQuiet · = true)) (fun _ _ => rfl) _ offset e he

/-- Nor does what is fed for a lexeme that is no line end, white space before it included. -/
theorem isQuiet_feed (c : Cursor) {x : Lexeme} (hx : x.isLineEnd = false) :
    ∀ e ∈ (c.feed x).1, e.isQuiet = true := by
  cases hlayout : x.isLayout with
  | true =>
    rw [c.feed_of_layout hlayout]
    exact Lexeme.isQuiet_events hx
  | false =>
    rcases c.feed_cases hlayout with ⟨d, -, -, hfeed⟩ | ⟨-, -, hfeed⟩ | ⟨-, -, hfeed⟩
    · rw [hfeed]
      simp [Event.isQuiet]
    · rw [hfeed]
      exact forall_mem_flush (P := (Event.isQuiet · = true)) (fun _ => rfl) c
    · rw [hfeed]
      intro e he
      rcases List.mem_append.mp he with he | he
      · exact c.isQuiet_close x.start e he
      · exact Lexeme.isQuiet_events hx e he

/-- The events for all that stands before an offset. -/
theorem In.covers_upTo (h : c.In source) {offset : Nat} (hlo : c.offset ≤ offset)
    (hle : offset ≤ source.length) :
    Covers source c.spelledTo offset ((c.close offset).filterMap Event.fragment?) := by
  obtain ⟨hflushed, hin, hoffset, -⟩ := h.covers_flush
  rw [close, List.filterMap_append]
  exact hflushed.append (hin.covers_gap (hoffset ▸ hlo) hle)

/-- A comment and a line end come behind all that stands before them. -/
theorem In.feed_of_kind (h : c.In source) {x : Lexeme} (hlayout : x.isLayout = false)
    (hx : x.Spells source) (hstart : c.offset ≤ x.start)
    (hkind : x.kind = .comment ∨ x.isLineEnd = true) :
    (c.feed x).1 = c.close x.start ++ x.events ∧ (c.feed x).2.spelledTo = x.stop := by
  have herror : x.kind ≠ .error ∧ x.kind ≠ .name := by
    rw [Lexeme.isLineEnd_iff] at hkind
    rcases hkind with hkind | hkind | hkind <;> simp [hkind]
  have hoffset := (h.covers_feed hlayout hx hstart).2.2
  rcases c.feed_cases hlayout with ⟨d, -, hnames, -⟩ | ⟨-, hblank, -⟩ | ⟨-, hblank, hfeed⟩
  · exact absurd (Lexeme.of_names hnames).1 herror.2
  · exact absurd (Lexeme.kind_of_isBlankError hblank) herror.1
  · rw [Lexeme.reach_of_kept hlayout hblank] at hoffset
    have hdollar : x.isDollar = false := by
      unfold Lexeme.isDollar
      simp [herror.1]
    refine ⟨by rw [hfeed]; rfl, ?_⟩
    rw [← hoffset, hfeed, hdollar]
    rfl

/-- Feeding two stretches of lexemes is feeding the one and then, from where it has come to, the
other. -/
theorem feedAll_append (c : Cursor) (l l' : List Lexeme) :
    (c.feedAll (l ++ l')) = ((c.feedAll l).1 ++ ((c.feedAll l).2.feedAll l').1,
      ((c.feedAll l).2.feedAll l').2) := by
  induction l generalizing c with
  | nil => rfl
  | cons x rest ih => simp only [List.cons_append, feedAll, ih, List.append_assoc]

/-- So the events of a source can be cut at any lexeme. Here they are cut at the comment. -/
theorem events_append (c : Cursor) (length : Nat) (l l' : List Lexeme) :
    c.events length (l ++ l') = (c.feedAll l).1 ++ (c.feedAll l).2.events length l' := by
  induction l generalizing c with
  | nil => rfl
  | cons x rest ih =>
    show (c.feed x).1 ++ events (c.feed x).2 length (rest ++ l') = _
    rw [ih, feedAll, List.append_assoc]

end Cursor

/-! ## Lines and rows -/

theorem Lexeme.Spelling.of_append {source : Text} {l l' : List Lexeme}
    (h : Spelling source (l ++ l')) : Spelling source l ∧ Spelling source l' := by
  have hordered := h.ordered
  rw [List.filter_append] at hordered
  have hparts := List.pairwise_append.mp hordered
  exact ⟨⟨hparts.1, fun x hx => h.spelled x (List.mem_append_left _ hx)⟩,
    ⟨hparts.2.1, fun x hx => h.spelled x (List.mem_append_right _ hx)⟩⟩

/-- The cursor behind some lexemes has not got to the next one. -/
theorem Cursor.in_feedAll {source : Text} {before after : List Lexeme}
    (hspelling : Lexeme.Spelling source (before ++ after)) :
    ((start source).feedAll before).2.In source ∧ ∀ x ∈ after, x.isLayout = false →
      ((start source).feedAll before).2.offset ≤ x.start := by
  obtain ⟨-, hin, hoffset⟩ := (in_start source).covers_feedAll hspelling.of_append.1
    fun _ _ _ => Nat.zero_le _
  refine ⟨hin, ?_⟩
  intro x hx hlayout
  rw [hoffset]
  apply Lexeme.convertedTo_le
  intro y hy hylayout
  have hordered := hspelling.ordered
  rw [List.filter_append] at hordered
  exact (List.pairwise_append.mp hordered).2.2 y (List.mem_filter.mpr ⟨hy, by simp [hylayout]⟩) x
    (List.mem_filter.mpr ⟨hx, by simp [hlayout]⟩)

namespace Builder

open Lexeme (lineAfter rowAfter lineStart rowStart)

variable {b : Builder} {c : Cursor} {source : Text} {line row : Nat}

/-- **One lexeme.** A line end moves the beginning of the row, one that ends a logical line moves
that of the line, and no other lexeme moves any. -/
theorem Ruled.feed (h : b.Ruled source line row c.spelledTo) (hin : c.In source) {x : Lexeme}
    (hspells : x.isLayout = false → x.Spells source ∧ c.offset ≤ x.start) (hfeeds : x.Feeds) :
    ((c.feed x).1.foldl Builder.step b).Ruled source (lineAfter line x) (rowAfter row x)
      (c.feed x).2.spelledTo := by
  by_cases hend : x.isLineEnd = true
  · have hlayout := Lexeme.isLayout_of_isLineEnd hend
    obtain ⟨hspelled, hstart⟩ := hspells hlayout
    obtain ⟨hevents, hstop⟩ := hin.feed_of_kind hlayout hspelled hstart (Or.inr hend)
    have hlength : x.start ≤ source.length := Nat.le_trans (Nat.le_add_right _ _) hspelled.1
    -- the gap before the line end is quiet, so only the line end itself begins a row
    have hbefore := h.foldl_quiet (c.isQuiet_close x.start) (hin.covers_upTo hstart hlength)
    obtain ⟨hbreak, hcode⟩ := hbefore.lineBreak (hfeeds hend) hspelled.2
    rw [hevents, hstop, List.foldl_append, rowAfter, if_pos hend]
    -- of the two kinds of line end, only one closes the line of the builder as well
    by_cases hkind : x.kind = .newline
    · have hown : x.events = [.trivia .newline x.text x.start, .endLine] := by
        simp [Lexeme.events, hkind]
      rw [lineAfter, if_pos hkind, hown]
      exact hbreak.endLine hcode
    · have hown : x.events = [.trivia .newline x.text x.start] := by
        have hother : x.kind = .lineBreak := (Lexeme.isLineEnd_iff.mp hend).resolve_left hkind
        simp [Lexeme.events, hother]
      rw [lineAfter, if_neg hkind, hown]
      exact hbreak
  -- any other lexeme feeds events that change neither row nor line
  · have hquiet := c.isQuiet_feed (Bool.eq_false_iff.mpr hend)
    have hkind : x.kind ≠ .newline := by
      intro hkind
      simp [Lexeme.isLineEnd, hkind] at hend
    rw [lineAfter, if_neg hkind, rowAfter, if_neg hend]
    cases hlayout : x.isLayout with
    | true =>
      have hcovers : Covers source c.spelledTo (c.feed x).2.spelledTo
          ((c.feed x).1.filterMap Event.fragment?) := by
        rw [c.feed_of_layout hlayout, Lexeme.fragments_of_layout hlayout]
        rfl
      exact h.foldl_quiet hquiet hcovers
    | false =>
      obtain ⟨hspelled, hstart⟩ := hspells hlayout
      exact h.foldl_quiet hquiet (hin.covers_feed hlayout hspelled hstart).1

/-- **All lexemes.** The builder's notes on lines are right behind any lexemes whose line ends hold
line feeds. -/
theorem ruled_feedAll {before : List Lexeme} (hspelling : Lexeme.Spelling source before)
    (hfeeds : ∀ y ∈ before, y.Feeds) :
    (run ((Cursor.start source).feedAll before).1).Ruled source (lineStart before) (rowStart before)
      ((Cursor.start source).feedAll before).2.spelledTo := by
  induction before using List.reverseRecOn with
  | nil => exact ruled_empty source
  | append_singleton l x ih =>
    have hbefore := ih hspelling.of_append.1 fun y hy => hfeeds y (List.mem_append_left _ hy)
    obtain ⟨hin, hstart⟩ := Cursor.in_feedAll hspelling
    have hx : x ∈ l ++ [x] := List.mem_append_right _ List.mem_cons_self
    rw [Cursor.feedAll_append, run, List.foldl_append, lineStart, rowStart, List.foldl_append,
      List.foldl_append]
    have hfeed := hbefore.feed hin (x := x)
      (fun hlayout => ⟨hspelling.spelled x hx hlayout, hstart x List.mem_cons_self hlayout⟩)
      (hfeeds x hx)
    simp only [Cursor.feedAll, List.append_nil]
    exact hfeed

end Builder

/-- The events before a comment and those behind it. Of the first it is known that they spell the
source up to the comment, of the others that they spell what follows. -/
theorem Event.exists_split {source : Text} {before after : List Lexeme} {x : Lexeme}
    (hspelling : Lexeme.Spelling source (before ++ x :: after)) (hfeeds : ∀ y ∈ before, y.Feeds)
    (hkind : x.kind = .comment) :
    ∃ earlier later, Event.ofLexemes source (before ++ x :: after)
        = earlier ++ .trivia .comment x.text x.start :: later
      ∧ (Builder.run earlier).Ruled source (Lexeme.lineStart before) (Lexeme.rowStart before)
        x.start
      ∧ Covers source x.stop source.length (later.filterMap Event.fragment?) := by
  have hmem : x ∈ before ++ x :: after := List.mem_append_right _ List.mem_cons_self
  have hlayout : x.isLayout = false := by simp [Lexeme.isLayout, hkind]
  have hspelled := hspelling.spelled x hmem hlayout
  have hlength : x.start ≤ source.length := Nat.le_trans (Nat.le_add_right _ _) hspelled.1
  obtain ⟨hin, hstart⟩ := Cursor.in_feedAll hspelling
  have hx := hstart x List.mem_cons_self hlayout
  obtain ⟨hevents, hstop⟩ := hin.feed_of_kind hlayout hspelled hx (Or.inl hkind)
  have hown : x.events = [.trivia .comment x.text x.start] := by simp [Lexeme.events, hkind]
  have hsplit : before ++ x :: after = (before ++ [x]) ++ after := by simp
  -- the cursor behind the comment
  have hbehind := Cursor.in_feedAll (hsplit ▸ hspelling)
  rw [Cursor.feedAll_append] at hbehind
  simp only [Cursor.feedAll] at hbehind
  have hlater := hbehind.1.covers_events (hsplit ▸ hspelling).of_append.2 hbehind.2
  rw [hstop] at hlater
  refine ⟨((Cursor.start source).feedAll before).1
    ++ ((Cursor.start source).feedAll before).2.close x.start, _, ?_, ?_, hlater⟩
  · rw [Event.ofLexemes, Cursor.events_append, Cursor.events]
    simp only [hevents, hown, List.append_assoc, List.singleton_append]
  · have hruled := Builder.ruled_feedAll hspelling.of_append.1 hfeeds
    rw [Builder.run, List.foldl_append]
    exact hruled.foldl_quiet (Cursor.isQuiet_close _ x.start) (hin.covers_upTo hx hlength)

/-! ## Entries and tokens -/

namespace Builder

variable {b : Builder} {source : Text} {eofOffset : Int} {t : Token} {e : Entry}

/-- The entries of a builder, the end of the source as one more. -/
def allEntries (b : Builder) (eofOffset : Int) : List Entry :=
  (b.addToken .eof [] eofOffset).entries

theorem Sound.exists_token (h : b.Sound) (source : Text) (he : e ∈ b.allEntries eofOffset) :
    ∃ t ∈ (b.tree source eofOffset).descendants, t.shallow = b.bare e :=
  List.mem_map.mp ((h.tree_perm source eofOffset).subset
    (List.mem_map_of_mem (List.mem_reverse.mpr he)))

theorem Sound.exists_entry_of_token (h : b.Sound)
    (ht : t ∈ (b.tree source eofOffset).descendants) :
    ∃ e ∈ b.allEntries eofOffset, t.shallow = b.bare e := by
  obtain ⟨e, he, heq⟩ := List.mem_map.mp
    ((h.tree_perm source eofOffset).symm.subset (List.mem_map_of_mem ht))
  exact ⟨e, List.mem_reverse.mp he, heq.symm⟩

/-- A token begins and ends where its entry does, and has its trivia. -/
theorem of_shallow_eq_bare (h : t.shallow = b.bare e) :
    t.offset = e.offset ∧ t.stop = e.stop ∧ t.leading = e.leading
      ∧ t.trailing = b.trailingOf e.id := by
  have htext : t.text = e.text := congrArg Token.text h
  have hoffset : t.offset = e.offset := congrArg Token.offset h
  refine ⟨hoffset, ?_, congrArg Token.leading h, congrArg Token.trailing h⟩
  unfold Token.stop Entry.stop
  rw [htext, hoffset]

/-- The first token from an offset on is the first entry from there on. -/
theorem Sound.isFirstFrom (h : b.Sound) (heq : t.shallow = b.bare e) {offset : Nat}
    (hle : (offset : Int) ≤ e.offset)
    (hfirst : ∀ d ∈ b.allEntries eofOffset, (offset : Int) ≤ d.offset → e.offset ≤ d.offset) :
    (b.tree source eofOffset).IsFirstFrom offset t := by
  rw [Tree.IsFirstFrom, (of_shallow_eq_bare heq).1]
  refine ⟨hle, ?_⟩
  intro u hu hbehind
  obtain ⟨d, hd, hdeq⟩ := h.exists_entry_of_token hu
  rw [(of_shallow_eq_bare hdeq).1] at hbehind ⊢
  exact hfirst d hd hbehind

end Builder

/-! ## The comment in the tree -/

namespace Builder

variable {b : Builder} {source : Text} {line row : Nat} {x : Lexeme} {later : List Event}

/-- The builder at the end of the source, if `b` has got to the comment `x` and `later` follows. -/
def behind (b : Builder) (x : Lexeme) (later : List Event) : Builder :=
  later.foldl Builder.step (b.addTrivia x.remark)

/-- The end of the source as an event behind all others. -/
def endEvent (source : Text) : Event := .token .eof [] source.length

theorem covers_endOfSource {lo : Nat}
    (h : Covers source lo source.length (later.filterMap Event.fragment?)) :
    Covers source lo source.length ((later ++ [endEvent source]).filterMap Event.fragment?) := by
  rw [List.filterMap_append]
  exact h.append (covers_singleton (t := []) rfl (by simp [Text.slice]))

/-- All entries of the tree behind a comment are those of the builder that is fed the comment, then
what is later, then the end. -/
theorem allEntries_eq (b : Builder) (source : Text) (x : Lexeme) (later : List Event) :
    (b.behind x later).allEntries source.length
      = ((later ++ [endEvent source]).foldl Builder.step (b.addTrivia x.remark)).entries := by
  rw [List.foldl_append]
  rfl

theorem entries_addTrivia (b : Builder) (piece : Trivia) :
    (b.addTrivia piece).entries = b.entries := by
  obtain ⟨trailing, waiting, codeOnLine, heq⟩ := b.addTrivia_eq piece
  rw [heq]

section Later

variable (hlater : Covers source x.stop source.length (later.filterMap Event.fragment?))
include hlater

/-- All entries are those before the comment and others behind it. -/
theorem allEntries_behind (b : Builder) :
    ∃ newer, (b.behind x later).allEntries source.length = newer ++ b.entries
      ∧ ∀ d ∈ newer, (x.stop : Int) ≤ d.offset := by
  obtain ⟨newer, hentries, hbehind⟩ :=
    (b.addTrivia x.remark).entries_foldl_behind (covers_endOfSource hlater)
  refine ⟨newer, ?_, hbehind⟩
  rw [allEntries_eq, hentries, entries_addTrivia]

theorem mem_allEntries {e : Entry} (he : e ∈ b.entries) :
    e ∈ (b.behind x later).allEntries source.length := by
  obtain ⟨newer, hentries, -⟩ := allEntries_behind hlater b
  rw [hentries]
  exact List.mem_append_right _ he

/-- An entry that begins before the end of the comment was there before it. -/
theorem mem_entries_of_lt {e : Entry} (he : e ∈ (b.behind x later).allEntries source.length)
    (hlt : e.offset < x.stop) : e ∈ b.entries := by
  obtain ⟨newer, hentries, hbehind⟩ := allEntries_behind hlater b
  rw [hentries] at he
  rcases List.mem_append.mp he with he | he
  · have hle := hbehind e he
    omega
  · exact he

/-- Behind code the comment trails the first token of the line. -/
theorem Ruled.trailing_comment (h : b.Ruled source line row x.start) (hne : x.text ≠ [])
    (hcode : b.codeOnLine = true) :
    ∃ e ∈ (b.behind x later).allEntries source.length,
      x.remark ∈ (b.behind x later).trailingOf e.id ∧ (line : Int) ≤ e.offset
        ∧ ∀ d ∈ (b.behind x later).allEntries source.length, (line : Int) ≤ d.offset →
          e.offset ≤ d.offset := by
  obtain ⟨e, he, hhead, hle, hfirst⟩ := h.exists_first hcode
  refine ⟨e, mem_allEntries hlater he, ?_, hle, ?_⟩
  · have hempty : x.text.isEmpty = false := by simpa using hne
    rw [mem_trailingOf]
    apply mem_trailing_foldl
    simp [Builder.addTrivia, Lexeme.remark, hempty, hcode, hhead]
  · intro d hd hline
    by_cases hlt : d.offset < x.stop
    · exact hfirst d (mem_entries_of_lt hlater hd hlt) hline
    · have hself := e.offset_le_stop
      have hwithin := h.within e he
      have hstop : x.start ≤ x.stop := Nat.le_add_right _ _
      omega

/-- On a row without code it leads the next token. Until that token comes only blanks, comments and
line ends are fed, and all of them wait behind the comment. -/
theorem Ruled.leading_comment (h : b.Ruled source line row x.start) (hne : x.text ≠ [])
    (hcode : b.codeOnLine = false) (hfinish : .finish ∉ later) :
    ∃ e ∈ (b.behind x later).allEntries source.length,
      x.remark ∈ e.leading ∧ (x.stop : Int) ≤ e.offset
        ∧ ∀ d ∈ (b.behind x later).allEntries source.length, (x.stop : Int) ≤ d.offset →
          e.offset ≤ d.offset := by
  have hwaits : b.addTrivia x.remark = { b with waiting := b.waiting ++ [x.remark] } :=
    addTrivia_of_blank hcode hne
  have hpiece : x.remark ∈ (b.addTrivia x.remark).waiting := by
    rw [hwaits]
    exact List.mem_append_right _ List.mem_cons_self
  have hblank : (b.addTrivia x.remark).codeOnLine = false := by
    rw [hwaits]
    exact hcode
  have hevents : .finish ∉ later ++ [endEvent source] := by
    rw [List.mem_append, not_or]
    exact ⟨hfinish, by simp [endEvent]⟩
  obtain ⟨newer, e, hentries, hleading, hle, hfirst⟩ := exists_taking hpiece hblank hevents
    (covers_endOfSource hlater) ⟨endEvent source, List.mem_append_right _ List.mem_cons_self, rfl⟩
  rw [← allEntries_eq, entries_addTrivia] at hentries
  rw [hentries]
  refine ⟨e, List.mem_append_right _ List.mem_cons_self, hleading, hle, ?_⟩
  intro d hd hbehind
  rcases List.mem_append.mp hd with hd | hd
  · exact hfirst d hd
  · rcases List.mem_cons.mp hd with rfl | hd
    · exact Int.le_refl _
    · -- what was there before the comment ends before it
      have hself := d.offset_le_stop
      have hwithin := h.within d hd
      have hpos := List.length_pos_iff.mpr hne
      unfold Lexeme.stop at hbehind
      omega

/-- A token that ends before the comment was there before it. -/
theorem Sound.exists_entry_of_stop_le (hsound : (b.behind x later).Sound) (hne : x.text ≠ [])
    {t : Token} (ht : t ∈ ((b.behind x later).tree source source.length).descendants)
    (hle : t.stop ≤ x.start) : ∃ e ∈ b.entries, t.offset = e.offset ∧ t.stop = e.stop := by
  obtain ⟨e, he, heq⟩ := hsound.exists_entry_of_token ht
  obtain ⟨hoffset, hstop, -, -⟩ := of_shallow_eq_bare heq
  refine ⟨e, mem_entries_of_lt hlater he ?_, hoffset, hstop⟩
  have hself := e.offset_le_stop
  have hpos := List.length_pos_iff.mpr hne
  unfold Lexeme.stop
  omega

variable {before : List Lexeme}
  (h : b.Ruled source (Lexeme.lineStart before) (Lexeme.rowStart before) x.start)
  (hsound : (b.behind x later).Sound) (hne : x.text ≠ [])

include h hsound hne

/-- Where code stands before the comment in its line, the builder knows of it, and the comment
trails the first token of the logical line. -/
theorem Ruled.trails (hcode : b.codeOnLine = true) :
    ((b.behind x later).tree source source.length).HasCodeBefore before x
      ∧ ((b.behind x later).tree source source.length).Trails before x := by
  constructor
  · obtain ⟨e, he, hle⟩ := h.code hcode
    obtain ⟨t, ht, heq⟩ := hsound.exists_token source (mem_allEntries hlater he)
    obtain ⟨hoffset, hstop, -, -⟩ := of_shallow_eq_bare heq
    exact ⟨t, ht, hoffset ▸ hle, hstop ▸ h.within e he⟩
  · obtain ⟨e, he, htrailing, hle, hfirst⟩ := h.trailing_comment hlater hne hcode
    obtain ⟨t, ht, heq⟩ := hsound.exists_token source he
    refine ⟨t, ht, hsound.isFirstFrom heq hle hfirst, ?_⟩
    rwa [(of_shallow_eq_bare heq).2.2.2]

/-- Where none does, the comment waits for the next token, or for the end of the source, and leads
that. -/
theorem Ruled.leads (hcode : b.codeOnLine = false) (hfinish : .finish ∉ later) :
    ¬ ((b.behind x later).tree source source.length).HasCodeBefore before x
      ∧ ((b.behind x later).tree source source.length).Leads x := by
  constructor
  · rintro ⟨t, ht, hrow, hle⟩
    obtain ⟨e, he, hoffset, -⟩ := hsound.exists_entry_of_stop_le hlater hne ht hle
    have hlt := h.blank hcode e he
    omega
  · obtain ⟨e, he, hleading, hle, hfirst⟩ := h.leading_comment hlater hne hcode hfinish
    obtain ⟨t, ht, heq⟩ := hsound.exists_token source he
    refine ⟨t, ht, hsound.isFirstFrom heq hle hfirst, ?_⟩
    rwa [(of_shallow_eq_bare heq).2.2.1]

/-- Code on the row of the comment is code before it. The builder's flag says so without looking at
rows, which is why it has to be tied to them (`Ruled`). -/
theorem Ruled.hasCodeBefore
    (hline : ((b.behind x later).tree source source.length).HasCodeOnLine x) :
    ((b.behind x later).tree source source.length).HasCodeBefore before x := by
  obtain ⟨t, ht, hle, hfeed⟩ := hline
  obtain ⟨e, he, hoffset, hstop⟩ := hsound.exists_entry_of_stop_le hlater hne ht hle
  rcases h.parted e he with hrow | hparted
  · exact ⟨t, ht, hoffset ▸ hrow, hle⟩
  · -- the line feed that parts the token from the row parts it from the comment
    refine absurd ?_ hfeed
    rw [hstop]
    have hrow := h.row_le
    exact List.take_subset_take_left _ (by omega) hparted

end Later

end Builder

namespace Tree

/-- No two fragments of a tree of lexemes that hold text are the same. They lie apart in the source,
so already their offsets differ. -/
theorem nodup_fragments {source : Text} {lexemes : List Lexeme}
    (h : Lexeme.Spelling source lexemes) :
    (((Tree.ofLexemes source lexemes).descendants.flatMap fragments).filter
      (!·.2.isEmpty)).Nodup := by
  have hcovers := (Event.covers_ofLexemes h).pieces
  have hsolid : ∀ p ∈ (((Event.ofLexemes source lexemes).filter Event.isPiece).filterMap
      Event.fragment?).filter (!·.2.isEmpty), p.2 ≠ [] := by
    intro p hp
    simpa using (List.mem_filter.mp hp).2
  have hperm := (fragments_ofLexemes_perm source lexemes).filter (!·.2.isEmpty)
  rw [List.filter_append, List.filter_cons_of_neg (by simp), List.filter_nil,
    List.append_nil] at hperm
  rw [hperm.nodup_iff]
  exact (hcovers.filter.pairwise hsolid).imp fun hlt heq => absurd (congrArg Prod.fst heq)
    (Int.ne_of_lt hlt)

/-- No piece with text both trails a token and leads one. As the tree conserves what is fed, it
would have been fed twice. -/
theorem not_trailing_and_leading {source : Text} {lexemes : List Lexeme}
    (h : Lexeme.Spelling source lexemes) {piece : Trivia} (hne : piece.text ≠ []) {t u : Token}
    (ht : t ∈ (Tree.ofLexemes source lexemes).descendants)
    (hu : u ∈ (Tree.ofLexemes source lexemes).descendants) (htrailing : piece ∈ t.trailing)
    (hleading : piece ∈ u.leading) : False := by
  have hnodup := nodup_fragments h
  rw [List.filter_flatMap, List.nodup_flatMap] at hnodup
  obtain ⟨hown, hapart⟩ := hnodup
  have hsolid : (!piece.fragment.2.isEmpty) = true := by simpa [Trivia.fragment] using hne
  have hfirst : piece.fragment ∈ (u.leading.map Trivia.fragment).filter (!·.2.isEmpty) :=
    List.mem_filter.mpr ⟨List.mem_map_of_mem hleading, hsolid⟩
  have hlast : piece.fragment
      ∈ ((t.offset, t.text) :: t.trailing.map Trivia.fragment).filter (!·.2.isEmpty) :=
    List.mem_filter.mpr ⟨List.mem_cons_of_mem _ (List.mem_map_of_mem htrailing), hsolid⟩
  -- two tokens share no piece, so it hangs twice on one
  have hsame : t = u := by
    by_contra hdiffer
    have hsymm : Std.Symm (Function.onFun List.Disjoint
        fun t : Token => (fragments t).filter (!·.2.isEmpty)) :=
      ⟨fun _ _ hdisjoint => List.Disjoint.symm hdisjoint⟩
    have hdisjoint := hapart.forall ht hu hdiffer
    refine @hdisjoint piece.fragment ?_ ?_
    · show _ ∈ (fragments t).filter _
      rw [fragments, List.filter_append]
      exact List.mem_append_right _ hlast
    · show _ ∈ (fragments u).filter _
      rw [fragments, List.filter_append]
      exact List.mem_append_left _ hfirst
  subst hsame
  -- but what hangs on one token is told apart by offset and text as well
  have hone := hown t ht
  rw [fragments, List.filter_append, List.nodup_append] at hone
  exact hone.2.2 _ hfirst _ hlast rfl

/-- **A comment is hung as the line ends tell.** It trails the first token of its logical line if
there is code before it, and leads the next token if there is none. Code on its row is code before
it. -/
theorem comment_ofLexemes {source : Text} {before after : List Lexeme} {x : Lexeme}
    (hspelling : Lexeme.Spelling source (before ++ x :: after)) (hfeeds : ∀ y ∈ before, y.Feeds)
    (hkind : x.kind = .comment) (hne : x.text ≠ []) {tree : Tree}
    (htree : tree = Tree.ofLexemes source (before ++ x :: after)) :
    (tree.HasCodeBefore before x ∧ tree.Trails before x
        ∨ ¬ tree.HasCodeBefore before x ∧ tree.Leads x)
      ∧ (tree.HasCodeOnLine x → tree.HasCodeBefore before x) := by
  obtain ⟨earlier, later, hevents, hruled, hlater⟩ :=
    Event.exists_split hspelling hfeeds hkind
  have hfinish : .finish ∉ later := by
    intro hmem
    apply (Cursor.start source).finish_notMem_events source.length (before ++ x :: after)
    rw [← Event.ofLexemes, hevents]
    exact List.mem_append_right _ (List.mem_cons_of_mem _ hmem)
  -- the run is cut at the comment, and the builder at that place says where it goes
  have hrun : Builder.run (Event.ofLexemes source (before ++ x :: after))
      = (Builder.run earlier).behind x later := by
    rw [hevents, Builder.run, List.foldl_append]
    rfl
  have hsound := Builder.sound_run (Event.ofLexemes source (before ++ x :: after))
  rw [hrun] at hsound
  rw [Tree.ofLexemes, hrun] at htree
  subst htree
  refine ⟨?_, hruled.hasCodeBefore hlater hsound hne⟩
  cases hcode : (Builder.run earlier).codeOnLine with
  | true => exact Or.inl (hruled.trails hlater hsound hne hcode)
  | false => exact Or.inr (hruled.leads hlater hsound hne hcode hfinish)

end Tree

/-- **Where a comment goes.** A comment trails the first token of its logical line exactly if there
is code before it, and otherwise it leads the next token. That is where the text of its row says
unless a line feed that is no line end, as a continued line has one, parts the code from it. -/
theorem parse_comment (source : Text) (filePath : String) {before after : List Lexeme} {x : Lexeme}
    (h : (lex source).lexemes = before ++ x :: after) (hkind : x.kind = .comment) :
    (parse source filePath).tree.PlacesByLineEnds before x := by
  have hspelling := lex_spelling source
  have hfeeds := lex_feeds source
  have hsolid := lex_solid source
  rw [h] at hspelling hfeeds hsolid
  have hlayout : x.isLayout = false := by simp [Lexeme.isLayout, hkind]
  have hne : x.text ≠ [] := (hsolid x (List.mem_append_right _ List.mem_cons_self) hlayout).text
    (by simp [Lexeme.isLineEnd, hkind])
  -- a comment follows these lexemes, so each line end among them holds a line feed
  have hbefore : ∀ y ∈ before, y.Feeds := fun y hy =>
    (List.pairwise_append.mp hfeeds).2.2 y hy x List.mem_cons_self hkind
  have htree : (parse source filePath).tree = Tree.ofLexemes source (before ++ x :: after) := by
    rw [← h]
    rfl
  obtain ⟨hplace, hline⟩ := Tree.comment_ofLexemes hspelling hbefore hkind hne htree
  have hboth : ¬ ((parse source filePath).tree.Trails before x
      ∧ (parse source filePath).tree.Leads x) := by
    rintro ⟨⟨t, ht, -, htrailing⟩, u, hu, -, hleading⟩
    rw [htree] at ht hu
    exact Tree.not_trailing_and_leading hspelling hne ht hu htrailing hleading
  constructor
  · tauto
  · tauto
  · unfold Tree.PlacesByText
    tauto

/-- A comment on a row of its own inside brackets. -/
theorem parse_comment_bracket :
    (lex "x = [\n  # b\n]\n".toList).lexemes
        = [⟨.name, ['x'], 0⟩, ⟨.operator, ['='], 2⟩, ⟨.operator, ['['], 4⟩, ⟨.lineBreak, ['\n'], 5⟩]
          ++ ⟨.comment, "# b".toList, 8⟩
          :: [⟨.lineBreak, ['\n'], 11⟩, ⟨.operator, [']'], 12⟩, ⟨.newline, ['\n'], 13⟩]
      ∧ (⟨.comment, "# b".toList, 8⟩ : Lexeme).kind = .comment
      ∧ (parse "x = [\n  # b\n]\n".toList "m.py").tree.PlacesByLineEnds
        [⟨.name, ['x'], 0⟩, ⟨.operator, ['='], 2⟩, ⟨.operator, ['['], 4⟩, ⟨.lineBreak, ['\n'], 5⟩]
        ⟨.comment, "# b".toList, 8⟩ := by
  have hlexemes : (lex "x = [\n  # b\n]\n".toList).lexemes
      = [⟨.name, ['x'], 0⟩, ⟨.operator, ['='], 2⟩, ⟨.operator, ['['], 4⟩, ⟨.lineBreak, ['\n'], 5⟩]
        ++ ⟨.comment, "# b".toList, 8⟩
        :: [⟨.lineBreak, ['\n'], 11⟩, ⟨.operator, [']'], 12⟩, ⟨.newline, ['\n'], 13⟩] := by
    decide +kernel
  exact ⟨hlexemes, rfl, parse_comment _ _ hlexemes rfl⟩

/-- A comment behind a continued line, with no code on its row, trails the line all the same. -/
theorem parse_comment_continued :
    (lex "x = 1 \\\n# c\ny\n".toList).lexemes
        = [⟨.name, ['x'], 0⟩, ⟨.operator, ['='], 2⟩, ⟨.number, ['1'], 4⟩]
          ++ ⟨.comment, "# c".toList, 8⟩
          :: [⟨.newline, ['\n'], 11⟩, ⟨.name, ['y'], 12⟩, ⟨.newline, ['\n'], 13⟩]
      ∧ ¬ (parse "x = 1 \\\n# c\ny\n".toList "m.py").tree.PlacesByText
        [⟨.name, ['x'], 0⟩, ⟨.operator, ['='], 2⟩, ⟨.number, ['1'], 4⟩]
        ⟨.comment, "# c".toList, 8⟩ := by
  decide +kernel

end Orthography
