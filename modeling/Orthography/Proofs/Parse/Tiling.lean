/-
Nothing of a source is lost in its tree.

Between the lexemes, events for white space fill every gap; a dollar sign is held back until it is
known whether a name follows; comments behind code move to an earlier token. Main statement,
`Tree.tiles_ofLexemes`: the fragments of the tree still *tile* the source. Each is what the source
has at its offset, and in the order of their offsets they adjoin one another from the beginning to
the end, so that the tree spells the source.

The argument has two halves. In the order of feeding the events adjoin, with the offset up to which
the source is spelled as the invariant (`Event.covers_ofLexemes`). And the tree holds what was fed,
each piece once, so sorting brings back the order of feeding, since no two pieces that hold text
have one offset.
-/
import Mathlib.Data.List.Nodup
import Orthography.Parse.Basic
import Orthography.Proofs.Parse.Conversion

set_option autoImplicit false

namespace Orthography

/-! ## Tilings -/

/-- Texts at their offsets adjoin one another from `lo` to `hi`. -/
def Adjoin : Int → Int → List (Int × Text) → Prop
  | lo, hi, [] => lo = hi
  | lo, hi, p :: rest => p.1 = lo ∧ Adjoin (lo + p.2.length) hi rest

/-- The tree tiles a source. -/
structure Tree.Tiles (tree : Tree) (source : Text) : Prop where
  /-- Every token and every piece of trivia is what the source has at its offset. -/
  spelled : ∀ p ∈ tree.descendants.flatMap Tree.fragments,
    0 ≤ p.1 ∧ source.slice p.1.toNat (p.1.toNat + p.2.length) = p.2
  /-- Those that hold text, in the order of their offsets, leave no gap and do not overlap. -/
  adjoining : Adjoin 0 source.length
    (((tree.descendants.flatMap Tree.fragments).filter (!·.2.isEmpty)).mergeSort
      fun a b => a.1 ≤ b.1)
  /-- The tree spells the source. -/
  whole : tree.textWithTrivia = source

/-- Texts at their offsets adjoin one another, and each is what the source has there. -/
def Covers (source : Text) : Nat → Nat → List (Int × Text) → Prop
  | lo, hi, [] => lo = hi
  | lo, hi, p :: rest => p.1 = lo ∧ source.slice lo (lo + p.2.length) = p.2
    ∧ Covers source (lo + p.2.length) hi rest

section Covers

variable {source : Text} {lo mid hi : Nat} {l l' : List (Int × Text)}

theorem covers_singleton {t : Text} (hhi : lo + t.length = hi) (h : source.slice lo hi = t) :
    Covers source lo hi [((lo : Int), t)] := ⟨rfl, by rw [hhi, h], hhi⟩

theorem Covers.append (h : Covers source lo mid l) (h' : Covers source mid hi l') :
    Covers source lo hi (l ++ l') := by
  induction l generalizing lo with
  | nil => exact h ▸ h'
  | cons p rest ih => exact ⟨h.1, h.2.1, ih h.2.2⟩

theorem Covers.le (h : Covers source lo hi l) : lo ≤ hi := by
  induction l generalizing lo with
  | nil => exact Nat.le_of_eq h
  | cons p rest ih => exact Nat.le_trans (Nat.le_add_right _ _) (ih h.2.2)

/-- Empty texts may be left out. -/
theorem Covers.filter (h : Covers source lo hi l) :
    Covers source lo hi (l.filter (!·.2.isEmpty)) := by
  induction l generalizing lo with
  | nil => exact h
  | cons p rest ih =>
    have hrest := ih h.2.2
    rw [List.filter_cons]
    split
    · exact ⟨h.1, h.2.1, hrest⟩
    · next hempty =>
      have hnil : p.2 = [] := by simpa using hempty
      simpa [hnil] using hrest

/-- Fragments that cover a slice touch each other, from its beginning to its end. -/
theorem Covers.adjoin (h : Covers source lo hi l) : Adjoin lo hi l := by
  induction l generalizing lo with
  | nil => exact congrArg Int.ofNat h
  | cons p rest ih =>
    refine ⟨h.1, ?_⟩
    have := ih h.2.2
    rwa [Int.natCast_add] at this

/-- Each text lies in the stretch and is what the source has there. The offset of each is where
those before it end. -/
theorem Covers.spelled (h : Covers source lo hi l) :
    ∀ p ∈ l, (lo : Int) ≤ p.1 ∧ source.slice p.1.toNat (p.1.toNat + p.2.length) = p.2 := by
  induction l generalizing lo with
  | nil => simp
  | cons q rest ih =>
    intro p hp
    rcases List.mem_cons.mp hp with rfl | hp
    · refine ⟨Int.le_of_eq h.1.symm, ?_⟩
      rw [h.1]
      exact h.2.1
    · obtain ⟨hle, hslice⟩ := ih h.2.2 p hp
      exact ⟨by omega, hslice⟩

/-- No text reaches beyond the stretch. -/
theorem Covers.stop_le (h : Covers source lo hi l) : ∀ p ∈ l, p.1 + p.2.length ≤ hi := by
  induction l generalizing lo with
  | nil => simp
  | cons q rest ih =>
    intro p hp
    rcases List.mem_cons.mp hp with rfl | hp
    · have hstart := h.1
      have hle := h.2.2.le
      omega
    · exact ih h.2.2 p hp

theorem Covers.flatMap (h : Covers source lo hi l) : l.flatMap (·.2) = source.slice lo hi := by
  induction l generalizing lo with
  | nil =>
    obtain rfl : lo = hi := h
    simp [Text.slice]
  | cons p rest ih =>
    have hle := h.2.2.le
    rw [List.flatMap_cons, ih h.2.2, ← source.slice_append_slice (Nat.le_add_right _ _) hle, h.2.1]

/-- Texts that are not empty lie at growing offsets. -/
theorem Covers.pairwise (h : Covers source lo hi l) (hl : ∀ p ∈ l, p.2 ≠ []) :
    l.Pairwise fun p q => p.1 < q.1 := by
  induction l generalizing lo with
  | nil => exact List.Pairwise.nil
  | cons p rest ih =>
    refine List.pairwise_cons.mpr ⟨?_, ih h.2.2 fun q hq => hl q (List.mem_cons_of_mem _ hq)⟩
    intro q hq
    have hle := (h.2.2.spelled q hq).1
    have hpos := List.length_pos_iff.mpr (hl p List.mem_cons_self)
    have := h.1
    omega

end Covers

/-! ## Events that adjoin -/

/-- What an event feeds, with its offset. -/
def Event.fragment? : Event → Option (Int × Text)
  | .token _ text offset => some (offset, text)
  | .trivia _ text offset => some (offset, text)
  | _ => none

/-- Trivia without text need not be fed. -/
theorem Covers.pieces {source : Text} {lo hi : Nat} {events : List Event}
    (h : Covers source lo hi (events.filterMap Event.fragment?)) :
    Covers source lo hi ((events.filter Event.isPiece).filterMap Event.fragment?) := by
  induction events generalizing lo with
  | nil => exact h
  | cons e rest ih =>
    cases e with
    | token kind text offset => exact ⟨h.1, h.2.1, ih h.2.2⟩
    | trivia kind text offset =>
      cases text with
      | nil => exact ih h.2.2
      | cons ch text => exact ⟨h.1, h.2.1, ih h.2.2⟩
    | endLine | startBlock | finishBlock | finish => exact ih h

/-- The fragments of a token are what its pieces feed. -/
theorem Tree.fragments_eq (t : Token) : Tree.fragments t = t.pieces.filterMap Event.fragment? := by
  have htrivia : ∀ pieces : List Trivia,
      (pieces.map Trivia.event).filterMap Event.fragment?
        = pieces.map fun piece => (piece.offset, piece.text) := by
    intro pieces
    rw [List.filterMap_map]
    exact congrFun List.filterMap_eq_map' pieces
  simp only [Token.pieces, List.filterMap_append, List.filterMap_cons, Event.fragment?, htrivia,
    Tree.fragments]

namespace Cursor

/-- How far the events have spelled the source. A dollar sign that waits is not spelled yet. -/
def spelledTo (c : Cursor) : Nat := c.dollar.getD c.offset

/-- The cursor stands in the source, right behind the dollar sign if one waits. -/
structure In (c : Cursor) (source : Text) : Prop where
  /-- It knows what comes. -/
  rest : c.rest = source.drop c.offset
  /-- It does not stand behind the end. -/
  le : c.offset ≤ source.length
  /-- A waiting dollar sign is right before it. -/
  dollar : ∀ d, c.dollar = some d → d + 1 = c.offset ∧ source.slice d (d + 1) = ['$']

section Steps

variable {c : Cursor} {source : Text}

theorem In.advance (h : c.In source) {offset : Nat} (hle : offset ≤ source.length) :
    ({ c.advance offset with dollar := none } : Cursor).In source where
  rest := by
    simp only [Cursor.advance, h.rest, List.drop_drop]
    congr 1
    omega
  le := Nat.max_le.mpr ⟨h.le, hle⟩
  dollar := by simp

/-- The white space before an offset. -/
theorem In.covers_gap (h : c.In source) {offset : Nat} (hlo : c.offset ≤ offset)
    (hle : offset ≤ source.length) :
    Covers source c.offset offset ((c.gap offset).filterMap Event.fragment?) := by
  rw [gap]
  split
  · have hlen : (c.rest.take (offset - c.offset)).length = offset - c.offset := by
      rw [h.rest, List.length_take, List.length_drop]
      omega
    -- the white space is cut from what the cursor knows is left
    refine covers_singleton (by rw [hlen]; omega) ?_
    rw [Text.slice, h.rest]
  · exact Nat.le_antisymm hlo (by omega)

/-- A waiting dollar sign is spelled. -/
theorem In.covers_flush (h : c.In source) :
    Covers source c.spelledTo c.flush.2.offset (c.flush.1.filterMap Event.fragment?)
      ∧ c.flush.2.In source ∧ c.flush.2.offset = c.offset ∧ c.flush.2.dollar = none := by
  rw [flush, spelledTo]
  cases hdollar : c.dollar with
  | none =>
    refine ⟨rfl, ⟨h.rest, h.le, ?_⟩, rfl, hdollar⟩
    simp [hdollar]
  | some d =>
    -- it stands right before the cursor, so the cursor does not move
    obtain ⟨hnext, hslice⟩ := h.dollar d hdollar
    have hoffset : max c.offset (d + 1) = c.offset := by omega
    refine ⟨?_, h.advance (hnext ▸ h.le), hoffset, rfl⟩
    simp only [Cursor.advance, hoffset]
    exact covers_singleton hnext (hnext ▸ hslice)

end Steps

end Cursor

namespace Lexeme

/-- The letters before a string and the string spell the literal. Either of them may be empty. -/
theorem covers_stringEvents {source : Text} {start : Nat} {text : Text}
    (h : source.slice start (start + text.length) = text) :
    Covers source start (start + text.length)
      ((stringEvents text start).filterMap Event.fragment?) := by
  rw [stringEvents]
  generalize hletters : text.takeWhile Char.isAlpha = letters
  have hprefix : letters <+: text := hletters ▸ List.takeWhile_prefix _
  split
  · exact covers_singleton rfl h
  · have hlen := hprefix.length_le
    have hsplit := source.slice_append_slice (a := start) (b := start + letters.length)
      (c := start + text.length) (by omega) (by omega)
    have hlong : (source.slice start (start + letters.length)).length = letters.length := by
      have hwhole := congrArg List.length h
      rw [Text.length_slice] at hwhole ⊢
      omega
    have htext : source.slice start (start + letters.length)
        ++ source.slice (start + letters.length) (start + text.length)
          = letters ++ text.drop letters.length := by
      rw [hsplit, h, List.prefix_iff_eq_append.mp hprefix]
    -- two cuts of the literal at one place have the same parts
    obtain ⟨hfirst, hsecond⟩ := List.append_inj htext hlong
    refine (covers_singleton rfl hfirst).append (covers_singleton ?_ hsecond)
    rw [List.length_drop]
    omega

/-- A lexeme's own events spell it, unless it is a dollar sign that is held back. -/
theorem covers_events {source : Text} {x : Lexeme} (hx : x.Spells source)
    (hlayout : x.isLayout = false) (hdollar : x.isDollar = false) :
    Covers source x.start x.stop (x.events.filterMap Event.fragment?) := by
  have hone : Covers source x.start x.stop [((x.start : Int), x.text)] := covers_singleton rfl hx.2
  rw [events]
  cases hkind : x.kind with
  | comment | lineBreak | newline | name | number | operator => exact hone
  | string => exact covers_stringEvents hx.2
  | error => simpa [hdollar, Event.fragment?] using hone
  | indent | dedent => simp [isLayout, hkind] at hlayout

theorem fragments_of_layout {x : Lexeme} (hlayout : x.isLayout = true) :
    x.events.filterMap Event.fragment? = [] := by
  rw [events]
  cases hkind : x.kind <;> simp_all [isLayout, Event.fragment?]

end Lexeme

namespace Lexeme

/-- How far a source is spelled behind one more lexeme. What is left out leaves the end where it
was. -/
def reach (reached : Nat) (x : Lexeme) : Nat :=
  if x.isLayout || x.isBlankError then reached else x.stop

/-- Where the last lexeme ends that is converted. -/
def convertedTo (lexemes : List Lexeme) : Nat := lexemes.foldl reach 0

theorem reach_of_kept {reached : Nat} {x : Lexeme} (hlayout : x.isLayout = false)
    (hblank : x.isBlankError = false) : x.reach reached = x.stop := by
  rw [reach, hlayout, hblank]
  rfl

/-- A blank that belongs to no lexeme is left to the white space before the next one. -/
theorem reach_of_isBlankError {reached : Nat} {x : Lexeme} (h : x.isBlankError = true) :
    x.reach reached = reached := by
  rw [reach, h, Bool.or_true, if_pos rfl]

theorem reach_le {reached hi : Nat} {x : Lexeme} (hreached : reached ≤ hi)
    (hx : x.isLayout = false → x.stop ≤ hi) : x.reach reached ≤ hi := by
  rw [reach]
  split
  · exact hreached
  · next hkept => exact hx (by simp_all)

theorem convertedTo_le {lexemes : List Lexeme} {hi : Nat}
    (h : ∀ x ∈ lexemes, x.isLayout = false → x.stop ≤ hi) : convertedTo lexemes ≤ hi := by
  rw [convertedTo]
  have hzero : 0 ≤ hi := Nat.zero_le hi
  generalize 0 = reached at hzero
  induction lexemes generalizing reached with
  | nil => exact hzero
  | cons x rest ih =>
    exact ih (fun y hy => h y (List.mem_cons_of_mem _ hy)) _
      (reach_le hzero (h x List.mem_cons_self))

end Lexeme

namespace Cursor

/-- The events of lexemes from a cursor on, and the cursor behind them. -/
def feedAll (c : Cursor) : List Lexeme → List Event × Cursor
  | [] => ([], c)
  | x :: rest => ((c.feed x).1 ++ (feedAll (c.feed x).2 rest).1, (feedAll (c.feed x).2 rest).2)

/-- The events of a source are those of its lexemes and those for what is left. -/
theorem events_eq (c : Cursor) (length : Nat) (lexemes : List Lexeme) :
    c.events length lexemes = (c.feedAll lexemes).1 ++ (c.feedAll lexemes).2.close length := by
  induction lexemes generalizing c with
  | nil => rfl
  | cons x rest ih =>
    show (c.feed x).1 ++ events (c.feed x).2 length rest = _
    rw [ih, feedAll, List.append_assoc]

end Cursor

namespace Cursor

variable {c : Cursor} {source : Text}

/-- Behind a lexeme of its own, a cursor is at the end of that lexeme. A dollar sign it keeps back,
as a name may follow. -/
theorem In.own (h : c.In source) {x : Lexeme} (hx : x.Spells source) (hle : c.offset ≤ x.start) :
    ({ c.advance x.stop with dollar := if x.isDollar then some x.start else none } : Cursor).In
      source where
  rest := (h.advance hx.1).rest
  le := (h.advance hx.1).le
  dollar := by
    intro d hd
    cases hdollar : x.isDollar with
    | false => simp [hdollar] at hd
    | true =>
      obtain rfl : x.start = d := by simpa [hdollar] using hd
      have htext : x.text = ['$'] := by
        rw [Lexeme.eq_of_isDollar hdollar]
      have hstop : x.stop = x.start + 1 := by rw [Lexeme.stop, htext]; rfl
      refine ⟨?_, by rw [← hstop, hx.2, htext]⟩
      simp only [Cursor.advance]
      omega

/-- **One lexeme.** Its events go on where those before it stopped, and the cursor goes to its end
unless it is left out. -/
theorem In.covers_feed (h : c.In source) {x : Lexeme} (hlayout : x.isLayout = false)
    (hx : x.Spells source) (hle : c.offset ≤ x.start) :
    Covers source c.spelledTo (c.feed x).2.spelledTo ((c.feed x).1.filterMap Event.fragment?)
      ∧ (c.feed x).2.In source ∧ (c.feed x).2.offset = x.reach c.offset := by
  have hstop : x.start ≤ x.stop := Nat.le_add_right _ _
  obtain ⟨hflushed, hin, hoffset, hnone⟩ := h.covers_flush
  rcases c.feed_cases hlayout with ⟨d, hdollar, hnames, hfeed⟩ | ⟨-, hblank, hfeed⟩
    | ⟨-, hblank, hfeed⟩
  · -- the dollar sign and its name
    have hblank : x.isBlankError = false := by
      rw [Lexeme.isBlankError, (Lexeme.of_names hnames).1]
      rfl
    obtain ⟨hnext, hslice⟩ := h.dollar d hdollar
    have hstart := (Lexeme.of_names hnames).2
    have hto : c.spelledTo = d := by simp [spelledTo, hdollar]
    have hmax : max c.offset x.stop = x.stop := by omega
    rw [hfeed, hto, Lexeme.reach_of_kept hlayout hblank]
    refine ⟨?_, h.advance hx.1, hmax⟩
    simp only [spelledTo, Cursor.advance, hmax, Option.getD_none]
    refine covers_singleton ?_ ?_
    · simp only [Lexeme.stop, hstart, List.length_cons]
      omega
    · rw [← source.slice_append_slice (b := d + 1) (by omega) (by omega), hslice, ← hstart]
      exact congrArg (['$'] ++ ·) hx.2
  · -- a character that is left out
    rw [hfeed, Lexeme.reach_of_isBlankError hblank]
    have hto : c.flush.2.spelledTo = c.flush.2.offset := by simp [spelledTo, hnone]
    refine ⟨?_, hin, hoffset⟩
    rw [hto]
    exact hflushed
  · rw [hfeed, Lexeme.reach_of_kept hlayout hblank]
    have hgap := hin.covers_gap (hoffset ▸ hle) (Nat.le_trans hstop hx.1)
    have hmax : max c.flush.2.offset x.stop = x.stop := by omega
    refine ⟨?_, hin.own hx (hoffset ▸ hle), hmax⟩
    rw [List.filterMap_append, List.filterMap_append]
    refine (hflushed.append hgap).append ?_
    simp only [spelledTo, Cursor.advance, hmax]
    cases hdollar : x.isDollar with
    | false => exact Lexeme.covers_events hx hlayout hdollar
    | true =>
      -- a dollar sign is held back
      have hkind : x.kind = .error := by rw [Lexeme.eq_of_isDollar hdollar]
      simp [Lexeme.events, hkind, hdollar, Covers]

/-- What is fed at the end of the source covers what is left of it, with a dollar sign that was kept
back. -/
theorem In.covers_close (h : c.In source) :
    Covers source c.spelledTo source.length
      ((c.close source.length).filterMap Event.fragment?) := by
  obtain ⟨hflushed, hin, -, -⟩ := h.covers_flush
  rw [close, List.filterMap_append]
  exact hflushed.append (hin.covers_gap hin.le (Nat.le_refl _))

/-- **All lexemes.** Their events adjoin one another up to where the last one ends that is not left
out. -/
theorem In.covers_feedAll (h : c.In source) {lexemes : List Lexeme}
    (hspelling : Lexeme.Spelling source lexemes)
    (hbehind : ∀ x ∈ lexemes, x.isLayout = false → c.offset ≤ x.start) :
    Covers source c.spelledTo (c.feedAll lexemes).2.spelledTo
        ((c.feedAll lexemes).1.filterMap Event.fragment?)
      ∧ (c.feedAll lexemes).2.In source
      ∧ (c.feedAll lexemes).2.offset = lexemes.foldl Lexeme.reach c.offset := by
  -- on the lexemes; each one begins behind the cursor, since the one before it ends there
  induction lexemes generalizing c with
  | nil => exact ⟨rfl, h, rfl⟩
  | cons x rest ih =>
    rw [feedAll, List.filterMap_append, List.foldl_cons]
    have hspelled : ∀ y ∈ rest, y.isLayout = false → y.Spells source :=
      fun y hy => hspelling.spelled y (List.mem_cons_of_mem _ hy)
    cases hlayout : x.isLayout with
    | true =>
      have hreach : x.reach c.offset = c.offset := by rw [Lexeme.reach, hlayout, Bool.true_or]; rfl
      rw [c.feed_of_layout hlayout, Lexeme.fragments_of_layout hlayout, hreach]
      have hordered := hspelling.ordered
      rw [List.filter_cons, if_neg (by simp [hlayout])] at hordered
      exact ih h ⟨hordered, hspelled⟩ fun y hy => hbehind y (List.mem_cons_of_mem _ hy)
    | false =>
      have hordered := hspelling.ordered
      rw [List.filter_cons, if_pos (by simp [hlayout]), List.pairwise_cons] at hordered
      have hstart := hbehind x List.mem_cons_self hlayout
      obtain ⟨hcovers, hin, hoffset⟩ := h.covers_feed hlayout
        (hspelling.spelled x List.mem_cons_self hlayout) hstart
      have hstop : (c.feed x).2.offset ≤ x.stop := by
        rw [hoffset]
        exact Lexeme.reach_le (Nat.le_trans hstart (Nat.le_add_right _ _)) fun _ => Nat.le_refl _
      obtain ⟨hrest, hend, hlast⟩ := ih hin ⟨hordered.2, hspelled⟩ fun y hy hylayout => by
        have := hordered.1 y (List.mem_filter.mpr ⟨hy, by simp [hylayout]⟩)
        omega
      exact ⟨hcovers.append hrest, hend, hoffset ▸ hlast⟩

/-- The events for lexemes that spell the source adjoin one another up to its end. -/
theorem In.covers_events (h : c.In source) {lexemes : List Lexeme}
    (hspelling : Lexeme.Spelling source lexemes)
    (hbehind : ∀ x ∈ lexemes, x.isLayout = false → c.offset ≤ x.start) :
    Covers source c.spelledTo source.length
      ((c.events source.length lexemes).filterMap Event.fragment?) := by
  obtain ⟨hcovers, hin, -⟩ := h.covers_feedAll hspelling hbehind
  rw [events_eq, List.filterMap_append]
  exact hcovers.append hin.covers_close

end Cursor

/-- At the beginning of the source nothing has been fed, and nothing is kept back. -/
theorem Cursor.in_start (source : Text) : (Cursor.start source).In source where
  rest := rfl
  le := Nat.zero_le _
  dollar := by simp [Cursor.start]

/-- The events for lexemes that spell a source adjoin one another from its beginning to its end. -/
theorem Event.covers_ofLexemes {source : Text} {lexemes : List Lexeme}
    (h : Lexeme.Spelling source lexemes) :
    Covers source 0 source.length
      ((Event.ofLexemes source lexemes).filterMap Event.fragment?) :=
  (Cursor.in_start source).covers_events h fun _ _ _ => Nat.zero_le _

/-! ## Sorting brings back the order of feeding -/

/-- What is in order is the ascending row that it rearranges. -/
theorem eq_of_perm_of_ascending {l l' : List (Int × Text)} (hperm : l.Perm l')
    (hl : l.Pairwise fun p q => p.1 ≤ q.1) (hl' : l'.Pairwise fun p q => p.1 < q.1) : l = l' := by
  -- no two members of an ascending row have one offset
  have hnodup : (l'.map (·.1)).Nodup := List.pairwise_map.mpr (hl'.imp Int.ne_of_lt)
  have hantisymm : ∀ p q, p ∈ l → q ∈ l' → p.1 ≤ q.1 → q.1 ≤ p.1 → p = q := by
    intro p q hp hq hpq hqp
    exact List.inj_on_of_nodup_map hnodup (hperm.subset hp) hq (Int.le_antisymm hpq hqp)
  exact List.Perm.eq_of_pairwise hantisymm hl (hl'.imp Int.le_of_lt) hperm

theorem flatMap_filter_isEmpty (l : List (Int × Text)) :
    (l.filter (!·.2.isEmpty)).flatMap (·.2) = l.flatMap (·.2) := by
  induction l with
  | nil => rfl
  | cons p rest ih =>
    rw [List.filter_cons]
    split
    · rw [List.flatMap_cons, List.flatMap_cons, ih]
    · next hempty =>
      have hnil : p.2 = [] := by simpa using hempty
      rw [ih, List.flatMap_cons, hnil, List.nil_append]

theorem pairwise_sorted (l : List (Int × Text)) :
    (l.mergeSort fun a b => a.1 ≤ b.1).Pairwise fun p q => p.1 ≤ q.1 := by
  have htrans : ∀ p q r : Int × Text, decide (p.1 ≤ q.1) = true → decide (q.1 ≤ r.1) = true →
      decide (p.1 ≤ r.1) = true := by
    intro p q r hpq hqr
    rw [decide_eq_true_eq] at *
    exact Int.le_trans hpq hqr
  have htotal : ∀ p q : Int × Text, (decide (p.1 ≤ q.1) || decide (q.1 ≤ p.1)) = true := by
    intro p q
    rw [Bool.or_eq_true, decide_eq_true_eq, decide_eq_true_eq]
    exact Int.le_total p.1 q.1
  exact (List.pairwise_mergeSort htrans htotal l).imp of_decide_eq_true

/-- A tree spells the texts that were fed with growing offsets, in the order of feeding, wherever
among its fragments they are. Empty fragments may stand anywhere and add nothing. -/
theorem Tree.textWithTrivia_eq {tree : Tree} {fed : List (Int × Text)}
    (hperm : ((tree.descendants.flatMap fragments).filter (!·.2.isEmpty)).Perm
      (fed.filter (!·.2.isEmpty)))
    (hascending : (fed.filter (!·.2.isEmpty)).Pairwise fun p q => p.1 < q.1) :
    tree.textWithTrivia = fed.flatMap (·.2) := by
  have hsorted := ((List.mergeSort_perm (tree.descendants.flatMap fragments)
    fun a b => a.1 ≤ b.1).filter (!·.2.isEmpty)).trans hperm
  rw [textWithTrivia, ← flatMap_filter_isEmpty,
    eq_of_perm_of_ascending hsorted ((pairwise_sorted _).filter _) hascending,
    flatMap_filter_isEmpty]

/-- Fragments that rearrange a cover tile the source, whatever empty ones there are besides. Sorted
by offset they are the cover again, because no two that are not empty begin at the same place. -/
theorem Covers.tiles {source : Text} {fed : List (Int × Text)} {tree : Tree}
    (h : Covers source 0 source.length fed)
    (hperm : (tree.descendants.flatMap Tree.fragments).Perm
      (fed ++ [((source.length : Int), [])])) : tree.Tiles source := by
  have hsolid : ∀ p ∈ fed.filter (!·.2.isEmpty), p.2 ≠ [] := by
    intro p hp
    simpa using (List.mem_filter.mp hp).2
  have hascending := h.filter.pairwise hsolid
  -- the end of the source has no text and drops out with the other empty fragments
  have hfilter : ((tree.descendants.flatMap Tree.fragments).filter (!·.2.isEmpty)).Perm
      (fed.filter (!·.2.isEmpty)) := by
    refine (hperm.filter _).trans (List.Perm.of_eq ?_)
    simp
  refine ⟨?_, ?_, ?_⟩
  · intro p hp
    rcases List.mem_append.mp (hperm.subset hp) with hp | hp
    · exact h.spelled p hp
    · obtain rfl := List.mem_singleton.mp hp
      exact ⟨Int.natCast_nonneg _, by simp [Text.slice]⟩
  · rw [eq_of_perm_of_ascending ((List.mergeSort_perm _ _).trans hfilter) (pairwise_sorted _)
      hascending]
    exact h.filter.adjoin
  · rw [Tree.textWithTrivia_eq hfilter hascending, h.flatMap]
    simp [Text.slice]

/-- The tree of lexemes holds the texts that they feed, and an empty one at the source's
end. -/
theorem Tree.fragments_ofLexemes_perm (source : Text) (lexemes : List Lexeme) :
    ((Tree.ofLexemes source lexemes).descendants.flatMap Tree.fragments).Perm
      (((Event.ofLexemes source lexemes).filter Event.isPiece).filterMap Event.fragment?
        ++ [((source.length : Int), [])]) := by
  have hpieces := (Tree.pieces_ofLexemes_perm source lexemes).filterMap Event.fragment?
  rw [List.filterMap_flatMap, List.filterMap_append] at hpieces
  simp only [← Tree.fragments_eq] at hpieces
  exact hpieces

/-- The tree of lexemes that spell a source tiles it. -/
theorem Tree.tiles_ofLexemes {source : Text} {lexemes : List Lexeme}
    (h : Lexeme.Spelling source lexemes) : (Tree.ofLexemes source lexemes).Tiles source :=
  (Event.covers_ofLexemes h).pieces.tiles (fragments_ofLexemes_perm source lexemes)

/-- **A tree spells its source.** The tree that parsing makes tiles the source, and so does the tree
of any lexing that spells the source as far as it got, also one that failed. -/
theorem parse_tiles (source : Text) (filePath : String) :
    (parse source filePath).tree.Tiles source
      ∧ ∀ lexing : Lexing, Lexeme.Spelling source lexing.lexemes →
        (Parsed.ofLexing source filePath lexing).tree.Tiles source :=
  ⟨Tree.tiles_ofLexemes (lex_spelling source), fun _ h => Tree.tiles_ofLexemes h⟩

/-- Parsing, and a lexing that fails behind a dollar sign and its name. -/
theorem parse_tiles_dollar :
    (parse "x = [ # a\n  $if]".toList "m.py").tree.Tiles "x = [ # a\n  $if]".toList
      ∧ (Parsed.ofLexing "$a [\n".toList "m.py"
          ⟨[⟨.error, ['$'], 0⟩, ⟨.name, ['a'], 1⟩], some (.unclosedStatement 5)⟩).tree.Tiles
            "$a [\n".toList := by
  refine ⟨(parse_tiles _ _).1, (parse_tiles _ _).2 _ ⟨by decide, ?_⟩⟩
  simp [Lexeme.isLayout, Lexeme.Spells, Lexeme.stop, Text.slice]

end Orthography
