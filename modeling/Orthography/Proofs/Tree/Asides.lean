/-
What trails a token.

Trailing trivia comes in asides: a comment behind code with the blanks before it. The builder
moves all trivia that waits to the first token of the logical line, on the strength of a flag for
code on the physical line. That these are blanks only, and that they were fed in one go with the
comment, is a fact about what came before: as long as the flag is set within an open line, nothing
parts the trivia that waits from the code.

So the builder's notes are compared with all events so far (`Builder.Noted`): which stretches of
them were asides, and from which event on all trivia waits. Main statement,
`Event.exists_asides_run`, for any events in any order.
-/
import Orthography.Proofs.Tree.FeedOrder
import Orthography.Proofs.Tree.Scope

set_option autoImplicit false

namespace Orthography

/-! ## Asides -/

/-- The piece of trivia that the event feeds; without text there is none. -/
def Event.piece? : Event → Option Trivia
  | .trivia kind text offset => if text.isEmpty then none else some ⟨kind, text, offset⟩
  | _ => none

/-- Does the event part what is fed before it from what is fed behind it? Tokens do, newline pieces,
the end of a logical line, and the tree being asked for. A newline without text is no piece. -/
def Event.parts : Event → Bool
  | .token .. | .endLine | .finish => true
  | .trivia kind text _ => kind == .newline && !text.isEmpty
  | .startBlock | .finishBlock => false

/-- A newline piece parts. -/
theorem Event.parts_of_newline {e : Event} {piece : Trivia} (h : e.piece? = some piece)
    (hkind : piece.kind = .newline) : e.parts = true := by
  cases e with
  | trivia kind text offset =>
    rw [piece?] at h
    split at h
    · cases h
    · next hempty =>
      cases h
      cases hkind
      simp [parts, hempty]
  | token | endLine | startBlock | finishBlock | finish => cases h

/-- The numbers of the tokens with which logical lines begin. At first `fed` tokens were fed, and a
line is open if `within` is true. -/
def Event.heads (fed : Nat) (within : Bool) : List Event → List Nat
  | [] => []
  | .token .. :: rest => (if within then [] else [fed]) ++ heads (fed + 1) true rest
  | .endLine :: rest => heads fed false rest
  | .trivia .. :: rest | .startBlock :: rest | .finishBlock :: rest | .finish :: rest =>
    heads fed within rest

/-- A stretch of events that feeds a comment behind code and the blanks before it. -/
structure Aside where
  /-- The number of the token that the aside trails. -/
  head : Nat
  /-- The number of its first event. -/
  start : Nat
  /-- The number of the first event behind it. -/
  stop : Nat
  deriving DecidableEq, Repr

namespace Aside

/-- The events of the stretch. -/
def stretch (a : Aside) (events : List Event) : List Event := (events.take a.stop).drop a.start

/-- What the aside feeds. -/
def pieces (a : Aside) (events : List Event) : List Trivia :=
  (a.stretch events).filterMap Event.piece?

/-- What the asides on the token of a number feed. -/
def trailing (asides : List Aside) (events : List Event) (n : Nat) : List Trivia :=
  (asides.filter (·.head = n)).flatMap (·.pieces events)

/-- The events hold the aside. -/
structure FedBy (a : Aside) (events : List Event) : Prop where
  stop_le : a.stop ≤ events.length
  /-- It is blanks, if any, and then one comment. -/
  kinds : ∃ blanks, (a.pieces events).map (·.kind)
    = List.replicate blanks .whitespace ++ [.comment]
  /-- It was fed in one go. -/
  whole : ∀ e ∈ a.stretch events, e.parts = false
  /-- It stands behind code of the logical line that begins with its token. -/
  behind : Event.codeLine? (events.take a.start) = some a.head

end Aside

/-- All that trails a token of the tree is asides. -/
structure Tree.TrailedBy (tree : Tree) (events : List Event) (asides : List Aside) : Prop where
  fed : ∀ a ∈ asides, a.FedBy events
  /-- Asides trail first tokens of logical lines. -/
  heads : ∀ a ∈ asides, a.head ∈ Event.heads 0 false events
  /-- They stand in the order of feeding, and no two of them share an event. -/
  apart : asides.Pairwise fun a a' => a.stop ≤ a'.start
  /-- Each token has the asides on its number, and nothing else trails it. The end of the source has
  none. -/
  tokens : (tree.descendants.map fun t => (t.event, t.trailing)).Perm
    ((events.filter Event.isToken).zipIdx.map (fun p => (p.1, Aside.trailing asides events p.2))
      ++ [(tree.eof.event, [])])

/-! ## Code on the line -/

namespace Event

/-- What does not part leaves code and line as they are. -/
theorem codeLine?_concat (events : List Event) {e : Event} (he : e.parts = false) :
    codeLine? (events ++ [e]) = codeLine? events := by
  rw [codeLine?, codeLine?, List.foldl_append, List.foldl_cons, List.foldl_nil]
  cases e with
  | token | endLine | finish => cases he
  | trivia kind text offset =>
    cases kind <;> cases htext : text.isEmpty <;> simp_all [parts, Caret.step]
  | startBlock | finishBlock => rfl

/-- Behind a line end of either kind there is no code of an open line. -/
theorem codeLine?_concat_lineEnd (events : List Event) {e : Event} (he : e.parts = true)
    (htoken : e.isToken = false) (hfinish : e ≠ .finish) : codeLine? (events ++ [e]) = none := by
  rw [codeLine?, List.foldl_append, List.foldl_cons, List.foldl_nil]
  cases e with
  | token => cases htoken
  | trivia kind text offset =>
    simp only [parts, Bool.and_eq_true, beq_iff_eq, Bool.not_eq_true'] at he
    simp [Caret.step, he]
  | endLine => exact ite_self none
  | startBlock | finishBlock => cases he
  | finish => exact absurd rfl hfinish

/-- The open line begins with one of the tokens with which lines begin. Both are counted from the
events alone, without a builder. -/
theorem mem_heads_of_foldl {c : Caret} {events : List Event} {n : Nat}
    (h : (events.foldl Caret.step c).first = some n) :
    c.first = some n ∨ n ∈ heads c.fed c.first.isSome events := by
  induction events generalizing c with
  | nil => exact Or.inl h
  | cons e rest ih =>
    have ih := ih (c := c.step e) h
    cases e with
    | token kind text offset =>
      cases hfirst : c.first with
      | none =>
        simp only [Caret.step, hfirst] at ih
        simpa [heads, eq_comm] using ih
      | some first =>
        simp only [Caret.step, hfirst] at ih
        simpa [heads] using ih
    | endLine => exact Or.inr (ih.resolve_left (by simp [Caret.step]))
    | trivia | startBlock | finishBlock | finish => exact ih

/-- The line that code is on has its first token among the first tokens of lines. -/
theorem mem_heads_of_codeLine? {events : List Event} {n : Nat} (h : codeLine? events = some n) :
    n ∈ heads 0 false events := by
  rw [codeLine?] at h
  split at h
  · exact (mem_heads_of_foldl h).resolve_left (by simp)
  · cases h

/-- A line that began goes on having begun. -/
theorem heads_subset_append (fed : Nat) (within : Bool) (events more : List Event) :
    heads fed within events ⊆ heads fed within (events ++ more) := by
  induction events generalizing fed within with
  | nil => exact List.nil_subset _
  | cons e rest ih =>
    cases e with
    | token => exact List.append_subset.mpr ⟨List.subset_append_left _ _,
        List.subset_append_of_subset_right _ (ih _ _)⟩
    | trivia | endLine | startBlock | finishBlock | finish => exact ih _ _

end Event

/-! ## Asides among more events -/

namespace Aside

variable {a : Aside} {events : List Event}

theorem stretch_append (h : a.stop ≤ events.length) (more : List Event) :
    a.stretch (events ++ more) = a.stretch events := by
  rw [stretch, stretch, List.take_append_of_le_length h]

theorem pieces_append (h : a.stop ≤ events.length) (more : List Event) :
    a.pieces (events ++ more) = a.pieces events := by
  rw [pieces, pieces, stretch_append h]

/-- An aside feeds something, so it holds an event. -/
theorem FedBy.start_lt (h : a.FedBy events) : a.start < a.stop := by
  by_contra hle
  have hnone : a.pieces events = [] := by
    rw [pieces, stretch, List.drop_eq_nil_of_le, List.filterMap_nil]
    rw [List.length_take]
    omega
  obtain ⟨blanks, hkinds⟩ := h.kinds
  simp [hnone] at hkinds

/-- What was fed stays. -/
theorem FedBy.append (h : a.FedBy events) (more : List Event) : a.FedBy (events ++ more) := by
  have hstop := h.stop_le
  have hstart := h.start_lt
  refine ⟨?_, ?_, ?_, ?_⟩
  · rw [List.length_append]
    omega
  · rw [pieces_append hstop]
    exact h.kinds
  · rw [stretch_append hstop]
    exact h.whole
  · rw [List.take_append_of_le_length (by omega)]
    exact h.behind

end Aside

/-! ## Asides and builder side by side -/

namespace Builder

theorem run_concat (events : List Event) (e : Event) :
    run (events ++ [e]) = (run events).step e := by
  rw [run, List.foldl_append]
  rfl

/-- The builder's notes on lines tell whether code stands on the current one. -/
theorem codeLine?_eq (events : List Event) :
    Event.codeLine? events = if (run events).codeOnLine then (run events).head else none := by
  have hfits := Caret.fits_run events
  rw [Event.codeLine?, hfits.code, hfits.first]

/-- Trivia waits, but for a comment behind code. So what is set aside for the first token of a line
is set aside by a comment, together with what has waited. -/
theorem addTrivia_eq_waiting {events : List Event} {piece : Trivia} (hne : piece.text ≠ [])
    (hcode : piece.kind = .comment → Event.codeLine? events = none) :
    ((run events).addTrivia piece).trailing = (run events).trailing
      ∧ ((run events).addTrivia piece).waiting = (run events).waiting ++ [piece] := by
  rw [codeLine?_eq] at hcode
  have hempty : piece.text.isEmpty = false := by simpa using hne
  unfold addTrivia
  rw [hempty, if_neg Bool.false_ne_true]
  split
  · next hbehind =>
    rw [Bool.and_eq_true, decide_eq_true_eq] at hbehind
    have hnone := hcode hbehind.1
    rw [if_pos hbehind.2] at hnone
    rw [hnone]
    exact ⟨rfl, rfl⟩
  · exact ⟨rfl, rfl⟩

/-- What the builder has noted of trivia behind some events: the asides among them trail, and
all trivia from the event `since` on waits. -/
structure Noted (events : List Event) (asides : List Aside) (since : Nat) : Prop where
  trailing : (run events).trailing.reverse
    = asides.flatMap fun a => (a.pieces events).map (a.head, ·)
  waiting : (run events).waiting = (events.drop since).filterMap Event.piece?
  fed : ∀ a ∈ asides, a.FedBy events
  apart : asides.Pairwise fun a a' => a.stop ≤ a'.start
  stop_le : ∀ a ∈ asides, a.stop ≤ since
  since_le : since ≤ events.length
  /-- Where code stands on the line, it did so at `since`, and nothing came between. -/
  behind : ∀ head, Event.codeLine? events = some head →
    Event.codeLine? (events.take since) = some head ∧ ∀ e ∈ events.drop since, e.parts = false

variable {events : List Event} {asides : List Aside} {since : Nat} {e : Event}

theorem noted_empty : Noted [] [] 0 where
  trailing := rfl
  waiting := rfl
  fed := by simp
  apart := List.Pairwise.nil
  stop_le := by simp
  since_le := Nat.le_refl 0
  behind head hline := by cases hline

/-- The asides so far feed the same when one more event comes. -/
theorem Noted.flatMap_pieces (h : Noted events asides since) (e : Event) :
    (asides.flatMap fun a => (a.pieces (events ++ [e])).map (a.head, ·))
      = (run events).trailing.reverse := by
  rw [h.trailing]
  refine List.flatMap_congr fun a ha => ?_
  rw [Aside.pieces_append (h.fed a ha).stop_le]

/-- An event whose piece, if it feeds one, waits with the others. The stretch that is open grows by
the event, and what is noted stays as it is. -/
theorem Noted.wait (h : Noted events asides since)
    (htrailing : ((run events).step e).trailing = (run events).trailing)
    (hwaiting : ((run events).step e).waiting = (run events).waiting ++ e.piece?.toList)
    (hparts : e.parts = true → Event.codeLine? (events ++ [e]) = none) :
    Noted (events ++ [e]) asides since := by
  have hdrop : (events ++ [e]).drop since = events.drop since ++ [e] :=
    List.drop_append_of_le_length h.since_le
  refine ⟨?_, ?_, fun a ha => (h.fed a ha).append [e], h.apart, h.stop_le, ?_, ?_⟩
  · rw [run_concat, htrailing, h.flatMap_pieces]
  · rw [run_concat, hwaiting, h.waiting, hdrop, List.filterMap_append]
    cases hpiece : e.piece? <;> simp [hpiece]
  · rw [List.length_append]
    exact Nat.le_add_right_of_le h.since_le
  · intro head hline
    -- an event that parts would leave no line with code to be behind
    have hquiet : e.parts = false := by
      rw [Bool.eq_false_iff]
      intro he
      rw [hparts he] at hline
      cases hline
    rw [Event.codeLine?_concat events hquiet] at hline
    obtain ⟨hbefore, hwhole⟩ := h.behind head hline
    rw [List.take_append_of_le_length h.since_le, hdrop]
    refine ⟨hbefore, fun d hd => ?_⟩
    rcases List.mem_append.mp hd with hd | hd
    · exact hwhole d hd
    · rw [List.mem_singleton.mp hd]
      exact hquiet

/-- An event behind which nothing waits, once its asides are told. The next stretch begins behind
it. -/
theorem Noted.clear (hfed : ∀ a ∈ asides, a.FedBy (events ++ [e]))
    (hapart : asides.Pairwise fun a a' => a.stop ≤ a'.start)
    (htrailing : ((run events).step e).trailing.reverse
      = asides.flatMap fun a => (a.pieces (events ++ [e])).map (a.head, ·))
    (hwaiting : ((run events).step e).waiting = []) :
    Noted (events ++ [e]) asides (events.length + 1) := by
  have hlength : (events ++ [e]).length = events.length + 1 := by simp
  rw [← hlength]
  refine ⟨?_, ?_, hfed, hapart, fun a ha => (hfed a ha).stop_le, Nat.le_refl _, ?_⟩
  · rw [run_concat, htrailing]
  · rw [run_concat, hwaiting, List.drop_length]
    rfl
  · intro head hline
    rw [List.take_length, List.drop_length]
    exact ⟨hline, by simp⟩

/-- What waits behind code is blanks. -/
theorem Noted.kinds_waiting (h : Noted events asides since) {head : Nat}
    (hline : Event.codeLine? events = some head) :
    ∀ piece ∈ (run events).waiting, piece.kind = .whitespace := by
  obtain ⟨-, hwhole⟩ := h.behind head hline
  obtain ⟨-, -, hcomments⟩ := Event.codeLine?_eq_some hline
  intro piece hpiece
  cases hkind : piece.kind with
  | whitespace => rfl
  | newline =>
    rw [h.waiting] at hpiece
    obtain ⟨e, he, hsome⟩ := List.mem_filterMap.mp hpiece
    have hquiet := hwhole e he
    rw [Event.parts_of_newline hsome hkind] at hquiet
    cases hquiet
  | comment =>
    have hmem : piece.text ∈ commentsOf (run events).waiting :=
      List.mem_map_of_mem (List.mem_filter.mpr ⟨hpiece, by simp [hkind]⟩)
    rw [hcomments] at hmem
    cases hmem

/-! ### A comment behind code

All that waits becomes an aside, with the comment as its last event. -/

section Comment

variable (h : Noted events asides since) {head : Nat}
  (hline : Event.codeLine? events = some head) {text : Text} (hne : text ≠ []) (offset : Int)

include h

/-- The stretch that a comment closes: what has been waiting since the last token, piece of trivia
or line end that counted, and the comment. -/
theorem Noted.stretch_comment (e : Event) :
    Aside.stretch ⟨head, since, events.length + 1⟩ (events ++ [e]) = events.drop since ++ [e] := by
  rw [Aside.stretch, List.take_of_length_le (by simp)]
  exact List.drop_append_of_le_length h.since_le

include hne in
theorem Noted.pieces_comment :
    Aside.pieces ⟨head, since, events.length + 1⟩ (events ++ [.trivia .comment text offset])
      = (run events).waiting ++ [⟨.comment, text, offset⟩] := by
  have hempty : text.isEmpty = false := by simpa using hne
  rw [Aside.pieces, h.stretch_comment, List.filterMap_append, ← h.waiting]
  simp [Event.piece?, hempty]

include hline hne in
/-- It is fed in one go behind code of the line, and the comment is its last piece. -/
theorem Noted.fedBy_comment :
    Aside.FedBy ⟨head, since, events.length + 1⟩ (events ++ [.trivia .comment text offset]) := by
  obtain ⟨hbefore, hwhole⟩ := h.behind head hline
  refine ⟨by simp, ⟨(run events).waiting.length, ?_⟩, ?_, ?_⟩
  · rw [h.pieces_comment hne, List.map_append,
      List.map_eq_replicate_iff.mpr (h.kinds_waiting hline)]
    rfl
  · intro e he
    rw [h.stretch_comment, List.mem_append, List.mem_singleton] at he
    rcases he with he | rfl
    · exact hwhole e he
    · rfl
  · rw [List.take_append_of_le_length h.since_le]
    exact hbefore

include hline hne in
/-- So a comment behind code adds one aside, and the next one begins behind it. -/
theorem Noted.comment :
    Noted (events ++ [.trivia .comment text offset])
      (asides ++ [⟨head, since, events.length + 1⟩]) (events.length + 1) := by
  obtain ⟨hhead, hcode, -⟩ := Event.codeLine?_eq_some hline
  have hempty : text.isEmpty = false := by simpa using hne
  refine Noted.clear ?_ ?_ ?_ ?_
  · intro a ha
    rcases List.mem_append.mp ha with ha | ha
    · exact (h.fed a ha).append _
    · rw [List.mem_singleton.mp ha]
      exact h.fedBy_comment hline hne offset
  · refine List.pairwise_append.mpr ⟨h.apart, List.pairwise_singleton _ _, fun a ha a' ha' => ?_⟩
    rw [List.mem_singleton.mp ha']
    exact h.stop_le a ha
  · rw [List.flatMap_append, h.flatMap_pieces, List.flatMap_singleton, h.pieces_comment hne]
    simp [step, addTrivia, hempty, hcode, hhead]
  · simp [step, addTrivia, hempty, hcode, hhead]

end Comment

/-! ### All events -/

/-- **One event.** A comment behind code adds an aside, and no other event does. Behind a token
nothing waits any more; all else waits, or feeds nothing, and the stretch that is open goes on. -/
theorem Noted.step (h : Noted events asides since) (e : Event) :
    ∃ asides since, Noted (events ++ [e]) asides since := by
  have hfed : ∀ a ∈ asides, a.FedBy (events ++ [e]) := fun a ha => (h.fed a ha).append [e]
  have hsame := (h.flatMap_pieces e).symm
  cases e with
  | token | finish => exact ⟨asides, _, Noted.clear hfed h.apart hsame rfl⟩
  | endLine =>
    exact ⟨asides, since, h.wait rfl (List.append_nil _).symm fun he =>
      Event.codeLine?_concat_lineEnd events he rfl nofun⟩
  | startBlock | finishBlock =>
    exact ⟨asides, since, h.wait rfl (List.append_nil _).symm nofun⟩
  | trivia kind text offset =>
    by_cases hne : text = []
    · subst hne
      exact ⟨asides, since, h.wait rfl (List.append_nil _).symm fun he => by
        simp [Event.parts] at he⟩
    · by_cases haside : kind = .comment ∧ Event.codeLine? events ≠ none
      · obtain ⟨rfl, hline⟩ := haside
        obtain ⟨head, hline⟩ := Option.ne_none_iff_exists'.mp hline
        exact ⟨_, _, h.comment hline hne offset⟩
      · have hcode : kind = .comment → Event.codeLine? events = none := by tauto
        have hempty : text.isEmpty = false := by simpa using hne
        -- what is no comment behind code waits for the next token
        obtain ⟨htrailing, hwaiting⟩ :=
          @addTrivia_eq_waiting events ⟨kind, text, offset⟩ hne hcode
        refine ⟨asides, since, h.wait htrailing ?_ fun he =>
          Event.codeLine?_concat_lineEnd events he rfl nofun⟩
        rw [Event.piece?, hempty]
        exact hwaiting

/-- **All events.** -/
theorem exists_noted (events : List Event) : ∃ asides since, Noted events asides since := by
  induction events using List.reverseRecOn with
  | nil => exact ⟨[], 0, noted_empty⟩
  | append_singleton events e ih =>
    obtain ⟨asides, since, h⟩ := ih
    exact h.step e

/-! ## From notes to the tree -/

/-- What trails a token by the notes is what its asides feed. -/
theorem Noted.trailingOf_eq (h : Noted events asides since) (n : Nat) :
    (run events).trailingOf n = Aside.trailing asides events n := by
  rw [trailingOf, ← List.map_reverse, ← List.filter_reverse, h.trailing, Aside.trailing]
  clear h
  induction asides with
  | nil => rfl
  | cons a rest ih =>
    rw [List.flatMap_cons, List.filter_append, List.map_append, ih]
    by_cases hhead : a.head = n <;> simp [hhead, List.filter_map, Function.comp_def]

/-- Entries are numbered in the order of feeding. -/
theorem zipIdx_filter_isToken (events : List Event) :
    (events.filter Event.isToken).zipIdx
      = (run events).entries.reverse.map fun e => (e.event, e.id) := by
  have hfed := fed_foldl {} events
  have hids : (run events).entries.reverse.map (·.id)
      = List.range' 0 (events.filter Event.isToken).length := by
    rw [List.map_reverse, (sound_run events).ids, List.reverse_reverse, List.range_eq_range']
    have hlength := congrArg List.length hfed
    simp only [List.length_map, List.length_reverse] at hlength
    rw [run, hlength]
    rfl
  rw [List.zipIdx_eq_zip_range', ← hids, ← List.zip_map']
  exact congrArg (List.zip · _) hfed.symm

/-- The asides of the builder's notes are those of the tree. -/
theorem Noted.trailedBy_tree (h : Noted events asides since) (source : Text)
    (eofOffset : Int) : ((run events).tree source eofOffset).TrailedBy events asides := by
  refine ⟨h.fed, fun a ha => ?_, h.apart, ?_⟩
  · rw [← events.take_append_drop a.start]
    exact Event.heads_subset_append 0 false _ _ (Event.mem_heads_of_codeLine? (h.fed a ha).behind)
  · have hperm := (sound_run events).descendants_perm.map fun t => (t.event, t.trailing)
    rw [List.map_map, List.map_map] at hperm
    rw [Tree.descendants_eq _ rfl, List.map_append, zipIdx_filter_isToken, List.map_map]
    refine List.Perm.append (hperm.trans (List.Perm.of_eq ?_)) (List.Perm.refl _)
    exact List.map_congr_left fun e _ => congrArg (e.event, ·) (h.trailingOf_eq e.id)

end Builder

/-! ## Kinds of pieces -/

namespace Aside

variable {a : Aside} {events : List Event} {piece : Trivia}

/-- No line end is among the pieces: a line end behind code is never set aside. -/
theorem FedBy.kind_ne_newline (h : a.FedBy events) (hpiece : piece ∈ a.pieces events) :
    piece.kind ≠ .newline := by
  obtain ⟨blanks, hkinds⟩ := h.kinds
  have hmem := List.mem_map_of_mem (f := Trivia.kind) hpiece
  rw [hkinds, List.mem_append, List.mem_singleton] at hmem
  rcases hmem with hmem | hmem
  · rw [List.eq_of_mem_replicate hmem]
    decide
  · rw [hmem]
    decide

theorem FedBy.kind_getLast? (h : a.FedBy events)
    (hpiece : (a.pieces events).getLast? = some piece) : piece.kind = .comment := by
  obtain ⟨blanks, hkinds⟩ := h.kinds
  have hlast := congrArg List.getLast? hkinds
  rw [List.getLast?_map, hpiece, List.getLast?_concat] at hlast
  exact Option.some.inj hlast

end Aside

namespace Tree

variable {tree : Tree} {events : List Event} {asides : List Aside} {t : Token} {piece : Trivia}

/-- What trails a token is what some asides feed. -/
theorem TrailedBy.exists_trailing_eq (h : tree.TrailedBy events asides)
    (ht : t ∈ tree.descendants) :
    ∃ own ⊆ asides, t.trailing = own.flatMap (·.pieces events) := by
  have hmem := h.tokens.subset (List.mem_map_of_mem ht)
  rcases List.mem_append.mp hmem with hmem | hmem
  · obtain ⟨⟨fed, n⟩, -, heq⟩ := List.mem_map.mp hmem
    refine ⟨asides.filter (·.head = n), List.filter_subset_self _, ?_⟩
    exact (congrArg Prod.snd heq).symm
  · exact ⟨[], List.nil_subset _, congrArg Prod.snd (List.mem_singleton.mp hmem)⟩

theorem TrailedBy.kind_ne_newline (h : tree.TrailedBy events asides)
    (ht : t ∈ tree.descendants) (hpiece : piece ∈ t.trailing) : piece.kind ≠ .newline := by
  obtain ⟨own, hown, heq⟩ := h.exists_trailing_eq ht
  rw [heq] at hpiece
  obtain ⟨a, ha, hpiece⟩ := List.mem_flatMap.mp hpiece
  exact (h.fed a (hown ha)).kind_ne_newline hpiece

theorem TrailedBy.kind_getLast? (h : tree.TrailedBy events asides) (ht : t ∈ tree.descendants)
    (hpiece : t.trailing.getLast? = some piece) : piece.kind = .comment := by
  obtain ⟨own, hown, heq⟩ := h.exists_trailing_eq ht
  rw [heq, List.getLast?_flatMap] at hpiece
  obtain ⟨a, ha, hpiece⟩ := List.exists_of_findSome?_eq_some hpiece
  exact (h.fed a (hown (List.mem_reverse.mp ha))).kind_getLast? hpiece

end Tree

/-- **What trails a token.** Whatever the events and their order, the trailing trivia of each token
is asides: blanks and one comment, fed in one go behind code of the logical line that begins
with the token. So it holds no newline and does not end with a blank. -/
theorem Event.exists_asides_run (events : List Event) (source : Text) (eofOffset : Int) :
    let tree := (Builder.run events).tree source eofOffset
    (∃ asides, tree.TrailedBy events asides)
      ∧ ∀ t ∈ tree.descendants, (∀ piece ∈ t.trailing, piece.kind ≠ .newline)
        ∧ ∀ piece, t.trailing.getLast? = some piece → piece.kind = .comment := by
  intro tree
  obtain ⟨asides, since, hnoted⟩ := Builder.exists_noted events
  have htrailed : tree.TrailedBy events asides := hnoted.trailedBy_tree source eofOffset
  refine ⟨⟨asides, htrailed⟩, fun t ht => ⟨?_, ?_⟩⟩
  · exact fun piece hpiece => htrailed.kind_ne_newline ht hpiece
  · exact fun piece hpiece => htrailed.kind_getLast? ht hpiece

/-- Blanks that waited when the tree was asked for are lost, and a comment behind a line end that
fed no line feed has no line to trail. -/
example :
    let blank (offset : Int) : Trivia := ⟨.whitespace, [' '], offset⟩
    let comment (offset : Int) : Trivia := ⟨.comment, ['#'], offset⟩
    let events : List Event :=
      [.token .identifier ['a'] 0, (blank 1).event, .finish, (blank 2).event, .startBlock,
        (comment 3).event, (comment 4).event, .endLine, (comment 5).event,
        .token .identifier ['b'] 6]
    ((Builder.run events).tree [] 7).descendants.map (·.trailing)
        = [[blank 2, comment 3, comment 4], [], []]
      ∧ Aside.trailing [⟨0, 3, 6⟩, ⟨0, 6, 7⟩] events 0 = [blank 2, comment 3, comment 4] := by
  decide

end Orthography
