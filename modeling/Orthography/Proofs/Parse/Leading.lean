/-
What stands before a token.

The leading trivia of a token is the text right before it, and a finding about the token is shown
where that text begins. Main statement, `parse_leading`: the pieces adjoin one another up to the
token, and the first one begins at the beginning of the source, or where the token before ends, or
where a comment ends that stands behind that token and was moved to the head of its line.

Trivia waits until a token takes it or a comment takes it along. So what waits is one run of pieces
that ends where the events have got to, and it begins behind the last token or behind the last
comment that was moved (`Builder.Seams`). Each event keeps that, and the end of the source takes
what waits last, as a token would.
-/
import Mathlib.Data.List.Chain
import Orthography.Proofs.Parse.Tiling
import Orthography.Proofs.Tree.FeedOrder

set_option autoImplicit false

namespace Orthography

/-! ## Seams between tokens -/

/-- A piece of trivia as a text at its offset. -/
def Trivia.fragment (piece : Trivia) : Int × Text := (piece.offset, piece.text)

/-- Where a piece of trivia ends. -/
def Trivia.stop (piece : Trivia) : Int := piece.offset + piece.text.length

/-- The trivia before a token is the text before it. -/
structure Token.Led (t : Token) (source : Text) : Prop where
  /-- Each piece begins where the one before it ends, and the token where the last one ends. -/
  adjoining : Adjoin t.start t.offset (t.leading.map Trivia.fragment)
  inside : 0 ≤ t.start
  spelled : source.slice t.start.toNat t.offset.toNat = t.leadingText

/-- The token `t` starts where `u` ends, or where a comment ends that comes behind `u` and trails a
token of the tree. -/
def Tree.Seam (tree : Tree) (u t : Token) : Prop :=
  t.start = u.stop ∨ ∃ head ∈ tree.descendants, ∃ comment ∈ head.trailing,
    comment.kind = .comment ∧ u.stop ≤ comment.offset ∧ t.start = comment.stop

/-- In the order of the source, the tokens of a tree take up all the text between them. -/
structure Tree.Seamless (tree : Tree) (source : Text) : Prop where
  led : ∀ t ∈ tree.descendants, t.Led source
  /-- The tokens without their children, each of them once, the end of the source among them. -/
  ordered : ∃ row : List Token, row.Perm (tree.descendants.map Token.shallow)
    ∧ (row.Pairwise fun u t => u.stop ≤ t.start)
    ∧ (∀ t ∈ row.head?, t.start = 0)
    ∧ row.IsChain tree.Seam

/-! ## Seams between entries -/

/-- Where the token of an entry ends. -/
def Entry.stop (e : Entry) : Int := e.offset + e.text.length

/-- The text behind the newest of the entries, or behind a comment that comes behind it, goes on at
`lo`. Where there is no entry it is the whole text. -/
def Anchored (comments : List Trivia) (lo : Int) : List Entry → Prop
  | [] => lo = 0
  | e :: _ => lo = e.stop
    ∨ ∃ c ∈ comments, c.kind = .comment ∧ e.stop ≤ c.offset ∧ lo = c.stop

/-- Before each entry, the newest first, its leading trivia covers the text from an anchor on. -/
def Joined (source : Text) (comments : List Trivia) : List Entry → Prop
  | [] => True
  | e :: older => (∃ lo hi : Nat, e.offset = hi ∧ Anchored comments lo older
    ∧ Covers source lo hi (e.leading.map Trivia.fragment)) ∧ Joined source comments older

section Joined

variable {source : Text} {comments more : List Trivia} {entries : List Entry} {lo : Int}

theorem Anchored.mono (h : Anchored comments lo entries) (hmore : comments ⊆ more) :
    Anchored more lo entries := by
  cases entries with
  | nil => exact h
  | cons e older =>
    rcases h with h | ⟨c, hc, h⟩
    · exact Or.inl h
    · exact Or.inr ⟨c, hmore hc, h⟩

theorem Anchored.stop_le {e : Entry} {older : List Entry}
    (h : Anchored comments lo (e :: older)) : e.stop ≤ lo := by
  rcases h with h | ⟨c, -, -, hle, h⟩
  · omega
  · have hstop : c.offset ≤ c.stop := by
      unfold Trivia.stop
      omega
    omega

theorem Joined.mono (h : Joined source comments entries) (hmore : comments ⊆ more) :
    Joined source more entries := by
  induction entries with
  | nil => trivial
  | cons e older ih =>
    obtain ⟨⟨lo, hi, hoffset, hanchor, hcovers⟩, hrest⟩ := h
    exact ⟨⟨lo, hi, hoffset, hanchor.mono hmore, hcovers⟩, ih hrest⟩

/-- All entries end before the place where the text goes on. -/
theorem Joined.stop_le (h : Joined source comments entries)
    (hanchor : Anchored comments lo entries) : ∀ e ∈ entries, e.stop ≤ lo := by
  induction entries generalizing lo with
  | nil => simp
  | cons e older ih =>
    intro d hd
    obtain ⟨⟨start, hi, hoffset, hbefore, hcovers⟩, hrest⟩ := h
    have hlast := hanchor.stop_le
    rcases List.mem_cons.mp hd with rfl | hd
    · exact hlast
    · have hle := hcovers.le
      have hold := ih hrest hbefore d hd
      unfold Entry.stop at hlast
      omega

end Joined

/-- Where the first of some events ends that adjoin one another. -/
theorem Covers.exists_mid {source : Text} {lo hi : Nat} {e : Event} {rest : List Event}
    (h : Covers source lo hi ((e :: rest).filterMap Event.fragment?)) :
    ∃ mid, Covers source lo mid e.fragment?.toList
      ∧ Covers source mid hi (rest.filterMap Event.fragment?) := by
  cases hfragment : e.fragment? with
  | none =>
    rw [List.filterMap_cons_none hfragment] at h
    exact ⟨lo, rfl, h⟩
  | some p =>
    rw [List.filterMap_cons_some hfragment] at h
    exact ⟨lo + p.2.length, ⟨h.1, h.2.1, rfl⟩, h.2.2⟩

namespace Builder

/-! ## What every event keeps -/

/-- What trails tokens, in no order. -/
def remarks (b : Builder) : List Trivia := b.trailing.map (·.2)

/-- The events have spelled the source up to an offset, and whatever is not in a token or in a moved
comment leads a token or waits. -/
structure Seams (b : Builder) (source : Text) (reached : Nat) : Prop where
  sound : b.Sound
  joined : Joined source b.remarks b.entries
  waiting : ∃ lo : Nat, Anchored b.remarks lo b.entries
    ∧ Covers source lo reached (b.waiting.map Trivia.fragment)

variable {b : Builder} {source : Text} {reached : Nat}

theorem seams_empty (source : Text) : Seams {} source 0 where
  sound := sound_empty
  joined := trivial
  waiting := ⟨0, rfl, rfl⟩

/-- A token takes what waits. -/
theorem Seams.addToken (h : b.Seams source reached) (kind : TokenKind) (text : Text) :
    (b.addToken kind text reached).Seams source (reached + text.length) where
  sound := h.sound.addToken kind text reached
  joined := by
    obtain ⟨lo, hanchor, hcovers⟩ := h.waiting
    exact ⟨⟨lo, reached, rfl, hanchor, hcovers⟩, h.joined⟩
  waiting := ⟨reached + text.length, Or.inl rfl, rfl⟩

/-- Where a line is open there is a token. -/
theorem Sound.exists_newest (h : b.Sound) {head : Nat} (hhead : b.head = some head) :
    ∃ e older, b.entries = e :: older := by
  apply List.exists_cons_of_ne_nil
  intro hnil
  have hlt := h.head head hhead
  rw [hnil] at hlt
  exact Nat.not_lt_zero _ hlt

/-- A piece of trivia waits behind the others, or it is a comment that takes them along. In the
first case the seam is still open; in the second what waited goes to the first token of the line and
is known as one of its comments. -/
theorem Seams.addTrivia (h : b.Seams source reached) (kind : TriviaKind) {text : Text}
    (htext : source.slice reached (reached + text.length) = text) :
    (b.addTrivia ⟨kind, text, reached⟩).Seams source (reached + text.length) := by
  have hsound := h.sound.addTrivia ⟨kind, text, reached⟩
  obtain ⟨lo, hanchor, hcovers⟩ := h.waiting
  have hwaiting : Covers source lo (reached + text.length)
      ((b.waiting ++ [(⟨kind, text, reached⟩ : Trivia)]).map Trivia.fragment) := by
    rw [List.map_append]
    exact hcovers.append (covers_singleton rfl htext)
  unfold Builder.addTrivia at hsound ⊢
  by_cases hempty : text = []
  · -- an empty piece is none
    subst hempty
    exact h
  · rw [if_neg (by simpa using hempty)] at hsound ⊢
    split at hsound
    · next hcomment =>
      rw [if_pos hcomment]
      have hkind : kind = .comment := by
        rw [Bool.and_eq_true, decide_eq_true_eq] at hcomment
        exact hcomment.1
      cases hhead : b.head with
      | none =>
        simp only [hhead] at hsound
        exact ⟨hsound, h.joined, lo, hanchor, hwaiting⟩
      | some head =>
        simp only [hhead] at hsound
        obtain ⟨e, older, hentries⟩ := h.sound.exists_newest hhead
        have hsubset : b.remarks ⊆
            (((b.waiting ++ [(⟨kind, text, reached⟩ : Trivia)]).map (head, ·)).reverse
              ++ b.trailing).map (·.2) := by
          rw [List.map_append]
          exact List.subset_append_right _ _
        refine ⟨hsound, h.joined.mono hsubset, reached + text.length, ?_, rfl⟩
        -- the text goes on behind the comment, and the newest token ends before it
        rw [hentries] at hanchor
        have hstop := hanchor.stop_le
        have hle := hcovers.le
        show Anchored _ _ b.entries
        rw [hentries]
        refine Or.inr ⟨⟨kind, text, reached⟩, ?_, hkind, ?_, rfl⟩
        · simp [remarks]
        · show e.stop ≤ (reached : Int)
          omega
    · next hother =>
      rw [if_neg hother]
      exact ⟨hsound, h.joined, lo, hanchor, hwaiting⟩

/-- **One event.** Whatever spells the next text of the source keeps the seams. Events that spell
nothing change neither tokens nor what waits. -/
theorem Seams.step (h : b.Seams source reached) {e : Event} (hfinish : e ≠ .finish) {hi : Nat}
    (hcovers : Covers source reached hi e.fragment?.toList) : (b.step e).Seams source hi := by
  have hsound := h.sound.step e
  cases e with
  | token kind text offset =>
    obtain ⟨hoffset, -, hhi⟩ := hcovers
    cases hoffset
    cases hhi
    exact h.addToken kind text
  | trivia kind text offset =>
    obtain ⟨hoffset, htext, hhi⟩ := hcovers
    cases hoffset
    cases hhi
    exact h.addTrivia kind htext
  | endLine =>
    cases hcovers
    exact ⟨hsound, h.joined, h.waiting⟩
  | startBlock =>
    cases hcovers
    exact ⟨hsound, h.joined, h.waiting⟩
  | finishBlock =>
    cases hcovers
    exact ⟨hsound, h.joined, h.waiting⟩
  | finish => exact absurd rfl hfinish

/-- **All events.** Events that spell a stretch of the source keep the seams to its end. -/
theorem Seams.foldl {events : List Event} (hfinish : .finish ∉ events) {hi : Nat}
    (h : b.Seams source reached)
    (hcovers : Covers source reached hi (events.filterMap Event.fragment?)) :
    (events.foldl Builder.step b).Seams source hi := by
  induction events generalizing b reached with
  | nil =>
    cases hcovers
    exact h
  | cons e rest ih =>
    rw [List.mem_cons, not_or] at hfinish
    obtain ⟨mid, hfirst, hrest⟩ := hcovers.exists_mid
    exact ih hfinish.2 (h.step (Ne.symm hfinish.1) hfirst) hrest

/-! ## From entries to tokens -/

variable {comments : List Trivia} {e : Entry} {older : List Entry}

/-- Leading trivia that covers the text before an entry begins where its token starts. -/
theorem start_bare (b : Builder) {lo hi : Nat} (hoffset : e.offset = hi)
    (hcovers : Covers source lo hi (e.leading.map Trivia.fragment)) : (b.bare e).start = lo := by
  have hbare : (b.bare e).leading = e.leading := rfl
  unfold Token.start
  cases hleading : e.leading with
  | nil =>
    rw [hleading] at hcovers
    rw [hbare, hleading]
    cases hcovers
    exact hoffset
  | cons piece rest =>
    rw [hleading] at hcovers
    rw [hbare, hleading]
    exact hcovers.1

theorem led_of_joined (b : Builder) (h : Joined source comments (e :: older)) :
    (b.bare e).Led source := by
  obtain ⟨⟨lo, hi, hoffset, -, hcovers⟩, -⟩ := h
  have hstart := b.start_bare hoffset hcovers
  refine ⟨?_, ?_, ?_⟩
  · rw [hstart]
    show Adjoin lo e.offset _
    rw [hoffset]
    exact hcovers.adjoin
  · rw [hstart]
    omega
  · rw [hstart]
    show source.slice (lo : Int).toNat e.offset.toNat = e.leading.flatMap (·.text)
    rw [hoffset, Int.toNat_natCast, Int.toNat_natCast, ← hcovers.flatMap, List.flatMap_map]
    rfl

theorem forall_led_of_joined (b : Builder) {entries : List Entry}
    (h : Joined source comments entries) : ∀ t ∈ entries.map b.bare, t.Led source := by
  induction entries with
  | nil => simp
  | cons e older ih =>
    intro t ht
    rcases List.mem_cons.mp ht with rfl | ht
    · exact b.led_of_joined h
    · exact ih h.2 t ht

/-- Each token starts behind the ends of all older ones. -/
theorem pairwise_of_joined (b : Builder) {entries : List Entry}
    (h : Joined source comments entries) :
    (entries.map b.bare).Pairwise fun t u => u.stop ≤ t.start := by
  induction entries with
  | nil => exact List.Pairwise.nil
  | cons e older ih =>
    refine List.pairwise_cons.mpr ⟨?_, ih h.2⟩
    obtain ⟨⟨lo, hi, hoffset, hanchor, hcovers⟩, hrest⟩ := h
    intro u hu
    obtain ⟨d, hd, rfl⟩ := List.mem_map.mp hu
    rw [b.start_bare hoffset hcovers]
    exact hrest.stop_le hanchor d hd

/-- Between neighbouring entries there is a seam: what stands between them in the source is the
trivia that lead the later one, but for a comment that trails the first token of an earlier line. -/
theorem isChain_of_joined (b : Builder) {tree : Tree} {entries : List Entry}
    (hcomments : ∀ c ∈ comments, ∃ head ∈ tree.descendants, c ∈ head.trailing)
    (h : Joined source comments entries) :
    (entries.map b.bare).IsChain fun t u => tree.Seam u t := by
  induction entries with
  | nil => exact List.isChain_nil
  | cons e older ih =>
    have hrest := ih h.2
    obtain ⟨⟨lo, hi, hoffset, hanchor, hcovers⟩, -⟩ := h
    cases older with
    | nil => exact List.isChain_singleton _
    | cons d older =>
      refine List.isChain_cons_cons.mpr ⟨?_, hrest⟩
      unfold Tree.Seam
      rw [b.start_bare hoffset hcovers]
      rcases hanchor with hstop | ⟨c, hc, hkind, hle, hstop⟩
      · exact Or.inl hstop
      · obtain ⟨head, hhead, hmem⟩ := hcomments c hc
        exact Or.inr ⟨head, hhead, c, hmem, hkind, hle, hstop⟩

/-- The oldest token starts at the beginning of the source, with the trivia before it: nothing could
have been taken away from there. -/
theorem start_getLast?_of_joined (b : Builder) {entries : List Entry}
    (h : Joined source comments entries) :
    ∀ t ∈ (entries.map b.bare).getLast?, t.start = 0 := by
  induction entries with
  | nil => simp
  | cons e older ih =>
    intro t ht
    cases older with
    | nil =>
      obtain ⟨⟨lo, hi, hoffset, hanchor, hcovers⟩, -⟩ := h
      obtain rfl : b.bare e = t := by simpa using ht
      rw [b.start_bare hoffset hcovers]
      exact hanchor
    | cons d older =>
      apply ih h.2 t
      simpa using ht

/-! ## Trees -/

/-- The end of the source takes what waits, as a token behind all others would. -/
theorem bare_endOfSource (h : b.Sound) (eofOffset : Int) :
    b.bare ⟨b.nextId, b.ownerOfNext, .eof, [], eofOffset, b.waiting⟩
      = Token.endOfSource eofOffset b.waiting := by
  have hnone : b.trailingOf b.nextId = [] := by
    unfold trailingOf
    rw [List.reverse_eq_nil_iff, List.map_eq_nil_iff, List.filter_eq_nil_iff]
    intro p hp
    have hlt := h.trailing p hp
    rw [nextId_of_ids h.ids, decide_eq_true_eq]
    omega
  simp [bare, assembleEntry, Token.endOfSource, hnone, Rows.get]

/-- What trails in a builder trails a token of its tree. -/
theorem Sound.exists_trailing (h : b.Sound) (source : Text) (eofOffset : Int) :
    ∀ c ∈ b.remarks, ∃ head ∈ (b.tree source eofOffset).descendants, c ∈ head.trailing := by
  intro c hc
  obtain ⟨⟨n, c⟩, hmem, rfl⟩ := List.mem_map.mp hc
  have hid : n ∈ b.entries.map (·.id) := by
    rw [h.ids]
    simpa using h.trailing _ hmem
  obtain ⟨e, he, rfl⟩ := List.mem_map.mp hid
  have hbare : b.bare e ∈ b.entries.reverse.map b.bare :=
    List.mem_map_of_mem (List.mem_reverse.mpr he)
  obtain ⟨head, hhead, heq⟩ := List.mem_map.mp (h.descendants_perm.symm.subset hbare)
  refine ⟨head, ?_, ?_⟩
  · rw [Tree.descendants_eq _ rfl]
    exact List.mem_append_left _ hhead
  · have htrailing : head.trailing = b.trailingOf e.id := congrArg Token.trailing heq
    rw [htrailing]
    simpa [trailingOf] using hmem

/-- The tokens of a tree without their children: all that was fed, and the end of the source as one
token more. -/
theorem Sound.tree_perm (h : b.Sound) (source : Text) (eofOffset : Int) :
    ((b.addToken .eof [] eofOffset).entries.reverse.map b.bare).Perm
      ((b.tree source eofOffset).descendants.map Token.shallow) := by
  rw [Tree.descendants_eq _ rfl, List.map_append]
  simp only [Builder.addToken, List.reverse_cons, List.map_append, List.map_singleton]
  rw [bare_endOfSource h eofOffset]
  exact h.descendants_perm.symm.append_right _

/-- A builder that has spelled all of a source makes a tree without gaps. The end of the source is
joined like any other token. -/
theorem Seams.seamless (h : b.Seams source source.length) :
    (b.tree source source.length).Seamless source := by
  have hjoined := (h.addToken .eof []).joined
  have hperm := h.sound.tree_perm source source.length
  refine ⟨?_, _, hperm, ?_, ?_, ?_⟩
  · intro t ht
    have hmem := hperm.symm.subset (List.mem_map_of_mem (f := Token.shallow) ht)
    rw [List.map_reverse, List.mem_reverse] at hmem
    have hled := b.forall_led_of_joined hjoined _ hmem
    exact ⟨hled.adjoining, hled.inside, hled.spelled⟩
  · rw [List.map_reverse, List.pairwise_reverse]
    exact b.pairwise_of_joined hjoined
  · rw [List.map_reverse, List.head?_reverse]
    exact b.start_getLast?_of_joined hjoined
  · rw [List.map_reverse, List.isChain_reverse]
    exact b.isChain_of_joined (h.sound.exists_trailing source source.length) hjoined

end Builder

/-- The tree of lexemes that spell a source has no gaps between its tokens. -/
theorem Tree.seamless_ofLexemes {source : Text} {lexemes : List Lexeme}
    (h : Lexeme.Spelling source lexemes) : (Tree.ofLexemes source lexemes).Seamless source := by
  apply Builder.Seams.seamless
  exact (Builder.seams_empty source).foldl
    ((Cursor.start source).finish_notMem_events source.length lexemes) (Event.covers_ofLexemes h)

/-- **What stands before a token.** In the tree that parsing makes, the leading trivia of every
token is the text right before it, and it begins at the beginning of the source, or where the token
before ends, or where a moved comment behind that token ends. The same holds of any lexing that
spells the source as far as it got. -/
theorem parse_leading (source : Text) (filePath : String) :
    (parse source filePath).tree.Seamless source
      ∧ ∀ lexing : Lexing, Lexeme.Spelling source lexing.lexemes →
        (Parsed.ofLexing source filePath lexing).tree.Seamless source :=
  ⟨Tree.seamless_ofLexemes (lex_spelling source), fun _ h => Tree.seamless_ofLexemes h⟩

/-- A comment behind code, and a lexing that ends before its source does. -/
theorem parse_leading_comment :
    (parse "x = [ # a\n  $if]".toList "m.py").tree.Seamless "x = [ # a\n  $if]".toList
      ∧ (Parsed.ofLexing "$a [\n".toList "m.py"
          ⟨[⟨.error, ['$'], 0⟩, ⟨.name, ['a'], 1⟩], some (.unclosedStatement 5)⟩).tree.Seamless
            "$a [\n".toList := by
  refine ⟨(parse_leading _ _).1, (parse_leading _ _).2 _ ⟨by decide, ?_⟩⟩
  simp [Lexeme.isLayout, Lexeme.Spells, Lexeme.stop, Text.slice]

end Orthography
