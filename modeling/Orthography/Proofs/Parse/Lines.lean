/-
Where the lines begin that a builder is in.

A builder knows of an open logical line by its first token, and of code on the current physical line
by a flag. Here both are tied to offsets: `Builder.Ruled` says what the builder's notes mean for a
logical line that begins at `line` and a row that begins at `row`, behind the last line end of any
kind. Tokens and trivia other than line ends leave the two offsets where they are
(`Ruled.foldl_quiet`); a line end moves them (`Ruled.lineBreak`, `Ruled.endLine`).

What comes after an offset stays there. Tokens that are fed later lie behind it
(`entries_foldl_behind`), and a piece that waits on a row without code is taken by the first of them
(`exists_taking`).
-/
import Orthography.Proofs.Parse.Leading
import Orthography.Proofs.Tree.Scope

set_option autoImplicit false

namespace Orthography

/-! ## Quiet events -/

/-- Does the event end no line? -/
def Event.isQuiet : Event → Bool
  | .trivia kind _ _ => kind != .newline
  | .endLine | .finish => false
  | .token .. | .startBlock | .finishBlock => true

theorem Entry.offset_le_stop (e : Entry) : e.offset ≤ e.stop := by
  unfold Entry.stop
  omega

namespace Builder

/-- The builder's notes on lines, where the source is spelled up to `reached`, the open logical line
begins at `line` and the current row at `row`. -/
structure Ruled (b : Builder) (source : Text) (line row reached : Nat) : Prop where
  sound : b.Sound
  regular : b.Regular
  line_le : line ≤ row
  row_le : row ≤ reached
  within : ∀ e ∈ b.entries, e.stop ≤ reached
  /-- A token ends before the next one begins. -/
  ascending : b.entries.Pairwise fun newer older => older.stop ≤ newer.offset
  /-- Between two logical lines all tokens lie before the second one. -/
  between : b.head = none → ∀ e ∈ b.entries, e.offset < (line : Int)
  /-- The first token of the open line is the first one that lies in it. -/
  begun : ∀ head, b.head = some head → ∃ newer e older, b.entries = newer ++ e :: older
    ∧ e.id = head ∧ (line : Int) ≤ e.offset ∧ ∀ d ∈ older, d.offset < (line : Int)
  /-- Code on the row is a token on it. -/
  code : b.codeOnLine = true → ∃ e ∈ b.entries, (row : Int) ≤ e.offset
  blank : b.codeOnLine = false → ∀ e ∈ b.entries, e.offset < (row : Int)
  /-- A line feed parts a token before the row from the row. -/
  parted : ∀ e ∈ b.entries, (row : Int) ≤ e.offset ∨ '\n' ∈ source.slice e.stop.toNat row

variable {b : Builder} {source : Text} {line row reached : Nat}

theorem ruled_empty (source : Text) : Ruled {} source 0 0 0 where
  sound := sound_empty
  regular := regular_empty
  line_le := Nat.le_refl 0
  row_le := Nat.le_refl 0
  within := by simp
  ascending := List.Pairwise.nil
  between := by simp
  begun := by simp
  code := by simp
  blank := by simp
  parted := by simp

/-! ## Steps -/

/-- A token opens a line if none is open, and is on the physical line that the builder is in. Behind
it there is code on that line. -/
theorem Ruled.addToken (h : b.Ruled source line row reached) (kind : TokenKind) (text : Text) :
    (b.addToken kind text reached).Ruled source line row (reached + text.length) := by
  have hhead := b.head_addToken kind text reached h.regular.brackets
  have hline := h.line_le
  have hrow := h.row_le
  refine
    { sound := h.sound.addToken kind text reached
      regular := h.regular.step (.token kind text reached)
      line_le := hline
      row_le := by omega
      within := ?_
      ascending := List.pairwise_cons.mpr ⟨h.within, h.ascending⟩
      between := ?_
      begun := ?_
      code := fun _ => ⟨_, List.mem_cons_self, Int.ofNat_le.mpr hrow⟩
      blank := by simp [Builder.addToken]
      parted := ?_ }
  -- the token ends where reading has come to, and the older ones before that
  · intro e he
    rcases List.mem_cons.mp he with rfl | he
    · show (reached : Int) + text.length ≤ (reached + text.length : Nat)
      omega
    · have hle := h.within e he
      omega
  · intro hnone
    rw [hhead] at hnone
    cases hb : b.head <;> simp [hb] at hnone
  · intro head hsome
    rw [hhead] at hsome
    -- the head is the token itself if the line was between two, the old head if not
    cases hb : b.head with
    | none =>
      rw [hb] at hsome
      refine ⟨[], _, b.entries, rfl, Option.some.inj hsome, ?_, h.between hb⟩
      exact Int.ofNat_le.mpr (Nat.le_trans hline hrow)
    | some old =>
      rw [hb] at hsome
      obtain ⟨newer, e, older, hentries, hid, hle, hbefore⟩ := h.begun old hb
      refine ⟨⟨b.nextId, b.ownerOfNext, kind, text, reached, b.waiting⟩ :: newer, e, older, ?_,
        hid.trans (Option.some.inj hsome), hle, hbefore⟩
      rw [List.cons_append, ← hentries]
      rfl
  -- the token is on the row; no older one is parted from its row by it
  · intro e he
    rcases List.mem_cons.mp he with rfl | he
    · exact Or.inl (Int.ofNat_le.mpr hrow)
    · exact h.parted e he

/-- Line ends take code off the row, and no other trivia changes it. -/
theorem codeOnLine_addTrivia (b : Builder) (piece : Trivia) :
    (b.addTrivia piece).codeOnLine
      = (b.codeOnLine && (piece.text.isEmpty || piece.kind != .newline)) := by
  unfold addTrivia
  split
  · next hempty => simp [hempty]
  · next hempty =>
    split
    · next hcomment =>
      rw [Bool.and_eq_true, decide_eq_true_eq] at hcomment
      split <;> simp [hcomment]
    · simp [hempty]

/-- Trivia that ends no line. -/
theorem Ruled.addTrivia (h : b.Ruled source line row reached) {kind : TriviaKind} (text : Text)
    (hkind : kind ≠ .newline) :
    (b.addTrivia ⟨kind, text, reached⟩).Ruled source line row (reached + text.length) := by
  have hsound := h.sound.addTrivia ⟨kind, text, reached⟩
  have hregular := h.regular.addTrivia ⟨kind, text, reached⟩
  have hcode := b.codeOnLine_addTrivia ⟨kind, text, reached⟩
  have hrow := h.row_le
  obtain ⟨trailing, waiting, codeOnLine, heq⟩ := b.addTrivia_eq ⟨kind, text, reached⟩
  rw [heq] at hsound hregular hcode ⊢
  have hsame : codeOnLine = b.codeOnLine := by simpa [bne_iff_ne.mpr hkind] using hcode
  subst hsame
  refine { h with sound := hsound, regular := hregular, row_le := by omega, within := ?_ }
  intro e he
  have hle := h.within e he
  omega

/-- A line end begins a row. Here the row that the builder goes by and the line feeds of the source
are brought together; a line end that holds none would let them part. -/
theorem Ruled.lineBreak (h : b.Ruled source line row reached) {text : Text} (hfeed : '\n' ∈ text)
    (htext : source.slice reached (reached + text.length) = text) :
    (b.addTrivia ⟨.newline, text, reached⟩).Ruled source line (reached + text.length)
        (reached + text.length)
      ∧ (b.addTrivia ⟨.newline, text, reached⟩).codeOnLine = false := by
  have hsound := h.sound.addTrivia ⟨.newline, text, reached⟩
  have hregular := h.regular.addTrivia ⟨.newline, text, reached⟩
  have hcode := b.codeOnLine_addTrivia ⟨.newline, text, reached⟩
  have hline := h.line_le
  have hrow := h.row_le
  have hpos := List.length_pos_of_mem hfeed
  obtain ⟨trailing, waiting, codeOnLine, heq⟩ := b.addTrivia_eq ⟨.newline, text, reached⟩
  rw [heq] at hsound hregular hcode ⊢
  -- a line end that is not empty takes code off the row
  have hoff : codeOnLine = false := by
    have hempty : text.isEmpty = false := by
      simpa using List.ne_nil_of_mem hfeed
    simpa [hempty] using hcode
  subst hoff
  refine
    ⟨{ h with
        sound := hsound
        regular := hregular
        line_le := by omega
        row_le := Nat.le_refl _
        within := ?_
        code := by simp
        blank := ?_
        parted := ?_ }, rfl⟩
  · intro e he
    have hle := h.within e he
    omega
  · intro _ e he
    have hle := h.within e he
    have hstop := e.offset_le_stop
    omega
  -- every token so far now has this line end behind it, and with it a line feed
  · intro e he
    right
    have hle := h.within e he
    rw [← source.slice_append_slice (b := reached) (by omega) (by omega), htext]
    exact List.mem_append_right _ hfeed

/-- The end of a logical line, right behind its line end. -/
theorem Ruled.endLine (h : b.Ruled source line row row) (hcode : b.codeOnLine = false) :
    (b.step .endLine).Ruled source row row row :=
  { h with
    sound := h.sound.step .endLine
    regular := h.regular.step .endLine
    line_le := Nat.le_refl row
    between := fun _ => h.blank hcode
    begun := by simp [Builder.step] }

/-- An event that ends no line leaves line and row where they are, and puts code on the row if it
feeds a token. -/
theorem Ruled.step_quiet (h : b.Ruled source line row reached) {e : Event}
    (hquiet : e.isQuiet = true) {hi : Nat} (hcovers : Covers source reached hi e.fragment?.toList) :
    (b.step e).Ruled source line row hi := by
  cases e with
  | token kind text offset =>
    obtain ⟨hoffset, -, hhi⟩ := hcovers
    cases hoffset
    cases hhi
    exact h.addToken kind text
  | trivia kind text offset =>
    obtain ⟨hoffset, -, hhi⟩ := hcovers
    cases hoffset
    cases hhi
    exact h.addTrivia text (by simpa [Event.isQuiet] using hquiet)
  | startBlock =>
    cases hcovers
    exact { h with sound := h.sound.step .startBlock, regular := h.regular.step .startBlock }
  | finishBlock =>
    cases hcovers
    exact { h with sound := h.sound.step .finishBlock, regular := h.regular.step .finishBlock }
  | endLine | finish => cases hquiet

/-- Events that end no line leave the lines as they are, whatever else they feed. -/
theorem Ruled.foldl_quiet {events : List Event} (h : b.Ruled source line row reached)
    (hquiet : ∀ e ∈ events, e.isQuiet = true) {hi : Nat}
    (hcovers : Covers source reached hi (events.filterMap Event.fragment?)) :
    (events.foldl Builder.step b).Ruled source line row hi := by
  induction events generalizing b reached with
  | nil =>
    cases hcovers
    exact h
  | cons e rest ih =>
    obtain ⟨mid, hfirst, hrest⟩ := hcovers.exists_mid
    exact ih (h.step_quiet (hquiet e List.mem_cons_self) hfirst)
      (fun d hd => hquiet d (List.mem_cons_of_mem e hd)) hrest

/-- Where code stands on the row, the open line has a first token, the first of all tokens that lie
in the line. -/
theorem Ruled.exists_first (h : b.Ruled source line row reached) (hcode : b.codeOnLine = true) :
    ∃ e ∈ b.entries, b.head = some e.id ∧ (line : Int) ≤ e.offset
      ∧ ∀ d ∈ b.entries, (line : Int) ≤ d.offset → e.offset ≤ d.offset := by
  cases hhead : b.head with
  | none =>
    obtain ⟨e, he, hle⟩ := h.code hcode
    have hlt := h.between hhead e he
    have hline := h.line_le
    omega
  | some head =>
    obtain ⟨newer, e, older, hentries, rfl, hle, holder⟩ := h.begun head hhead
    have hascending := h.ascending
    rw [hentries] at hascending ⊢
    refine ⟨e, List.mem_append_right _ List.mem_cons_self, rfl, hle, ?_⟩
    intro d hd hline
    rcases List.mem_append.mp hd with hd | hd
    · have hstop := (List.pairwise_append.mp hascending).2.2 d hd e List.mem_cons_self
      have hself := e.offset_le_stop
      omega
    · rcases List.mem_cons.mp hd with rfl | hd
      · exact Int.le_refl _
      · have hlt := holder d hd
        omega

/-! ## What comes later -/

variable {lo hi : Nat} {events : List Event}

/-- A token that is fed behind an offset lies behind it. -/
theorem entries_step_behind (b : Builder) {e : Event}
    (hcovers : Covers source lo hi e.fragment?.toList) :
    ∃ newer, (b.step e).entries = newer ++ b.entries ∧ ∀ d ∈ newer, (lo : Int) ≤ d.offset := by
  cases e with
  | token kind text offset =>
    obtain ⟨hoffset, -, -⟩ := hcovers
    cases hoffset
    refine ⟨[_], rfl, ?_⟩
    simp
  | trivia kind text offset =>
    obtain ⟨trailing, waiting, codeOnLine, heq⟩ := b.addTrivia_eq ⟨kind, text, offset⟩
    refine ⟨[], ?_, by simp⟩
    rw [step, heq, List.nil_append]
  | endLine | startBlock | finishBlock | finish => exact ⟨[], rfl, by simp⟩

theorem entries_foldl_behind (b : Builder)
    (hcovers : Covers source lo hi (events.filterMap Event.fragment?)) :
    ∃ newer, (events.foldl Builder.step b).entries = newer ++ b.entries
      ∧ ∀ d ∈ newer, (lo : Int) ≤ d.offset := by
  induction events generalizing b lo with
  | nil => exact ⟨[], rfl, by simp⟩
  | cons e rest ih =>
    obtain ⟨mid, hfirst, hrest⟩ := hcovers.exists_mid
    obtain ⟨new, hnew, hbehind⟩ := b.entries_step_behind hfirst
    obtain ⟨newer, hnewer, hlater⟩ := ih (b.step e) hrest
    have hle := hfirst.le
    refine ⟨newer ++ new, ?_, ?_⟩
    · rw [List.foldl_cons, hnewer, hnew, List.append_assoc]
    · intro d hd
      rcases List.mem_append.mp hd with hd | hd
      · have hmid := hlater d hd
        omega
      · exact hbehind d hd

/-- On a row without code every piece of trivia waits. -/
theorem addTrivia_of_blank (hcode : b.codeOnLine = false) {piece : Trivia} (hne : piece.text ≠ []) :
    b.addTrivia piece = { b with waiting := b.waiting ++ [piece] } := by
  have hempty : piece.text.isEmpty = false := by simpa using hne
  unfold addTrivia
  simp [hempty, hcode]

/-- On a row without code, what waits goes on waiting until a token comes. -/
theorem waiting_step {piece : Trivia} (hpiece : piece ∈ b.waiting) (hcode : b.codeOnLine = false)
    {e : Event} (hfinish : e ≠ .finish) (htoken : e.isToken = false) :
    (b.step e).entries = b.entries ∧ piece ∈ (b.step e).waiting
      ∧ (b.step e).codeOnLine = false := by
  cases e with
  | token => cases htoken
  | trivia kind text offset =>
    by_cases hne : text = []
    · subst hne
      exact ⟨rfl, hpiece, hcode⟩
    · have heq : b.step (.trivia kind text offset)
          = { b with waiting := b.waiting ++ [⟨kind, text, offset⟩] } :=
        addTrivia_of_blank hcode hne
      rw [heq]
      exact ⟨rfl, List.mem_append_left _ hpiece, hcode⟩
  | endLine | startBlock | finishBlock => exact ⟨rfl, hpiece, hcode⟩
  | finish => exact absurd rfl hfinish

/-- On a row without code, what waits is taken by the next token. The events up to that token end
lines or feed blanks and comments, and none of that takes anything away. -/
theorem exists_taking {piece : Trivia} (hpiece : piece ∈ b.waiting) (hcode : b.codeOnLine = false)
    (hfinish : .finish ∉ events)
    (hcovers : Covers source lo hi (events.filterMap Event.fragment?))
    (htoken : ∃ e ∈ events, e.isToken = true) :
    ∃ newer e, (events.foldl Builder.step b).entries = newer ++ e :: b.entries
      ∧ piece ∈ e.leading ∧ (lo : Int) ≤ e.offset ∧ ∀ d ∈ newer, e.offset ≤ d.offset := by
  induction events generalizing b lo with
  | nil => simp at htoken
  | cons first rest ih =>
    rw [List.mem_cons, not_or] at hfinish
    obtain ⟨mid, hfirst, hrest⟩ := hcovers.exists_mid
    have hle := hfirst.le
    rw [List.foldl_cons]
    cases hkind : first.isToken with
    | true =>
      cases first with
      | token kind text offset =>
        -- the token takes what waits, and what is fed behind it stands behind it
        obtain ⟨hoffset, -, hmid⟩ := hfirst
        cases hoffset
        obtain ⟨newer, hnewer, hbehind⟩ := (b.addToken kind text lo).entries_foldl_behind hrest
        refine ⟨newer, _, hnewer, hpiece, Int.le_refl _, ?_⟩
        intro d hd
        have hlater := hbehind d hd
        show (lo : Int) ≤ d.offset
        omega
      | trivia | endLine | startBlock | finishBlock | finish => cases hkind
    | false =>
      -- the piece still waits, on a row that is still without code
      obtain ⟨hsame, hwaits, hblank⟩ := waiting_step hpiece hcode (Ne.symm hfinish.1) hkind
      have htail : ∃ e ∈ rest, e.isToken = true := by
        obtain ⟨e, he, htrue⟩ := htoken
        rcases List.mem_cons.mp he with rfl | he
        · rw [hkind] at htrue
          cases htrue
        · exact ⟨e, he, htrue⟩
      obtain ⟨newer, e, hentries, hleading, hbehind, hlater⟩ :=
        ih hwaits hblank hfinish.2 hrest htail
      refine ⟨newer, e, hsame ▸ hentries, hleading, by omega, hlater⟩

end Builder

end Orthography
