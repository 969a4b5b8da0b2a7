/-
The lexemes of a source spell it.

Reading goes line by line, and a literal may stay open over many lines. Main statement,
`lex_spelling`: apart from the marks for a change of indentation, the lexemes come in the order of
the source, none overlaps another one, and each is what the source has at its place. And none of
them is empty but for line ends (`lex_solid`). Both hold however reading ends.

Every function of the lexer gets the same kind of lemma. It says that its lexemes lie between two
offsets and that reading can go on behind them: `Within` and `Ready`. A step may claim to have read
more than there is left of the line, so the lemmas bound by what is left.
-/
import Mathlib.Data.List.Basic
import Mathlib.Data.List.TakeDrop
import Mathlib.Data.List.TakeWhile
import Orthography.Lexeme.Lexer

set_option autoImplicit false

namespace Orthography

/-! ## What it means to spell a source -/

namespace Lexeme

/-- Does the lexeme mark a change of indentation and nothing else? -/
def isLayout (x : Lexeme) : Bool := x.kind = .indent || x.kind = .dedent

/-- Is the shape a string or the beginning of one? -/
def Shape.isString : Shape → Bool
  | .literal | .openLiteral _ | .tripleOpening _ => true
  | _ => false

/-- Is the lexeme a line end? -/
def isLineEnd (x : Lexeme) : Bool := x.kind = .newline || x.kind = .lineBreak

theorem isLineEnd_iff {x : Lexeme} :
    x.isLineEnd = true ↔ x.kind = .newline ∨ x.kind = .lineBreak := by
  simp [isLineEnd]

/-- A line end is no mark for indentation. -/
theorem isLayout_of_isLineEnd {x : Lexeme} (h : x.isLineEnd = true) : x.isLayout = false := by
  rcases isLineEnd_iff.mp h with hkind | hkind
  all_goals simp [isLayout, hkind]

/-- The lexeme is what the source has at its place. -/
def Spells (x : Lexeme) (source : Text) : Prop :=
  x.stop ≤ source.length ∧ source.slice x.start x.stop = x.text

/-- The lexeme holds what its kind asks for. -/
structure Solid (x : Lexeme) : Prop where
  /-- There is text, unless it is a line end. -/
  text : x.isLineEnd = false → x.text ≠ []
  /-- A string holds a quote. -/
  quoted : x.kind = .string → x.text.any isQuote = true

/-- Nothing is asked of a line end: the one that stands for the end of a source is empty. -/
theorem solid_of_isLineEnd {x : Lexeme} (h : x.isLineEnd = true) : x.Solid where
  text := by simp [h]
  quoted := by
    intro hkind
    simp [isLineEnd, hkind] at h

/-- Marks for indentation aside, the lexemes come in the order of the source, none overlaps another
one, and each is what the source has at its place. -/
structure Spelling (source : Text) (lexemes : List Lexeme) : Prop where
  /-- A lexeme ends before the next one begins. -/
  ordered : (lexemes.filter (!·.isLayout)).Pairwise fun x y => x.stop ≤ y.start
  /-- Each is what the source has at its place. -/
  spelled : ∀ x ∈ lexemes, x.isLayout = false → x.Spells source

end Lexeme

namespace Lexer

open Lexeme

/-! ## Parts of a source -/

/-- The source goes on with `t` at `pos`. -/
def At (source : Text) (pos : Nat) (t : Text) : Prop :=
  pos ≤ source.length ∧ t <+: source.drop pos

variable {source : Text} {pos : Nat} {t : Text}

theorem At.length_le (h : At source pos t) : pos + t.length ≤ source.length := by
  have hle := h.2.length_le
  rw [List.length_drop] at hle
  have := h.1
  omega

theorem At.drop (h : At source pos t) {k : Nat} (hk : k ≤ t.length) :
    At source (pos + k) (t.drop k) := by
  obtain ⟨rest, hrest⟩ := h.2
  have hle := h.length_le
  refine ⟨by omega, rest, ?_⟩
  rw [← List.drop_drop, ← hrest, List.drop_append_of_le_length hk]

/-- What is cut out of the source from a place on is the beginning of what stands there. -/
theorem At.slice_eq (h : At source pos t) {k : Nat} (hk : k ≤ t.length) :
    source.slice pos (pos + k) = t.take k := by
  obtain ⟨rest, hrest⟩ := h.2
  rw [Text.slice, Nat.add_sub_cancel_left, ← hrest, List.take_append_of_le_length hk]

/-- The first characters, read as a lexeme, are what the source has there. -/
theorem At.spells_take (h : At source pos t) (kind : LexemeKind) (n : Nat) :
    Spells ⟨kind, t.take n, pos⟩ source := by
  have hlen : (t.take n).length ≤ t.length := List.length_take_le' n t
  have hle := h.length_le
  refine ⟨?_, ?_⟩
  · simp only [Lexeme.stop]
    omega
  · simp only [Lexeme.stop]
    rw [h.slice_eq hlen, List.take_eq_take_iff, List.length_take]
    omega

/-- Some of the first characters are no empty lexeme. -/
theorem solid_take {kind : LexemeKind} {n : Nat} (hn : 0 < n) (ht : t ≠ [])
    (hquote : kind = .string → (t.take n).any isQuote = true) : Solid ⟨kind, t.take n, pos⟩ where
  text := by
    intro _
    simp only [ne_eq, List.take_eq_nil_iff, not_or]
    exact ⟨by omega, ht⟩
  quoted := hquote

/-! ## Lexemes between two offsets -/

/-- The lexemes lie in order between two offsets, each of them as the source has it. -/
def Within (source : Text) : Nat → Nat → List Lexeme → Prop
  | lo, hi, [] => lo ≤ hi
  | lo, hi, x :: rest =>
    if x.isLayout then Within source lo hi rest
    else lo ≤ x.start ∧ x.Spells source ∧ x.Solid ∧ Within source x.stop hi rest

theorem within_singleton {x : Lexeme} {lo hi : Nat} (hlo : lo ≤ x.start) (hspells : x.Spells source)
    (hsolid : x.Solid) (hhi : x.stop ≤ hi) : Within source lo hi [x] := by
  rw [Within]
  split
  · exact Nat.le_trans hlo (Nat.le_trans (Nat.le_add_right _ _) hhi)
  · exact ⟨hlo, hspells, hsolid, hhi⟩

/-- Marks for indentation lie anywhere. -/
theorem within_of_layout {lexemes : List Lexeme} {lo hi : Nat} (hle : lo ≤ hi)
    (h : ∀ x ∈ lexemes, x.isLayout = true) : Within source lo hi lexemes := by
  induction lexemes with
  | nil => exact hle
  | cons x rest ih =>
    rw [Within, if_pos (h x List.mem_cons_self)]
    exact ih fun y hy => h y (List.mem_cons_of_mem _ hy)

/-- The offsets may lie farther apart. So a stretch that is known exactly can be used where only
bounds matter. -/
theorem Within.mono {lexemes : List Lexeme} {lo lo' hi hi' : Nat}
    (h : Within source lo hi lexemes) (hlo : lo' ≤ lo) (hhi : hi ≤ hi') :
    Within source lo' hi' lexemes := by
  induction lexemes generalizing lo lo' with
  | nil => exact Nat.le_trans hlo (Nat.le_trans h hhi)
  | cons x rest ih =>
    rw [Within] at h ⊢
    split at h
    · next hx => rw [if_pos hx]; exact ih h hlo
    · next hx =>
      rw [if_neg hx]
      exact ⟨Nat.le_trans hlo h.1, h.2.1, h.2.2.1, ih h.2.2.2 (Nat.le_refl _)⟩

theorem Within.append {xs ys : List Lexeme} {lo mid hi : Nat} (hx : Within source lo mid xs)
    (hy : Within source mid hi ys) : Within source lo hi (xs ++ ys) := by
  induction xs generalizing lo with
  | nil => exact hy.mono hx (Nat.le_refl _)
  | cons x rest ih =>
    rw [List.cons_append, Within]
    rw [Within] at hx
    split at hx
    · next hlayout => rw [if_pos hlayout]; exact ih hx
    · next hlayout =>
      rw [if_neg hlayout]
      exact ⟨hx.1, hx.2.1, hx.2.2.1, ih hx.2.2.2⟩

/-- Each lexeme between two offsets starts behind the first one and is as the source has it. Marks
for indentation are left out, as they stand for no text. -/
theorem Within.forall_mem {lexemes : List Lexeme} {lo hi : Nat} (h : Within source lo hi lexemes) :
    ∀ x ∈ lexemes, x.isLayout = false → lo ≤ x.start ∧ x.Spells source ∧ x.Solid := by
  induction lexemes generalizing lo with
  | nil => simp
  | cons y rest ih =>
    intro x hx hlayout
    rw [Within] at h
    by_cases hy : y.isLayout = true
    · rw [if_pos hy] at h
      rcases List.mem_cons.mp hx with rfl | hx
      · simp [hlayout] at hy
      · exact ih h x hx hlayout
    · rw [if_neg hy] at h
      obtain ⟨hlo, hspells, hsolid, hrest⟩ := h
      rcases List.mem_cons.mp hx with rfl | hx
      · exact ⟨hlo, hspells, hsolid⟩
      · -- the lexemes behind `y` start behind its end
        obtain ⟨hstart, hx⟩ := ih hrest x hx hlayout
        have hstop : y.start ≤ y.stop := Nat.le_add_right _ _
        exact ⟨by omega, hx⟩

/-- Each of them ends before the second one. -/
theorem Within.stop_le {lexemes : List Lexeme} {lo hi : Nat} (h : Within source lo hi lexemes) :
    lo ≤ hi ∧ ∀ x ∈ lexemes, x.isLayout = false → x.stop ≤ hi := by
  induction lexemes generalizing lo with
  | nil => exact ⟨h, by simp⟩
  | cons y rest ih =>
    rw [Within] at h
    by_cases hy : y.isLayout = true
    · rw [if_pos hy] at h
      obtain ⟨hle, hrest⟩ := ih h
      refine ⟨hle, fun x hx hlayout => ?_⟩
      rcases List.mem_cons.mp hx with rfl | hx
      · rw [hy] at hlayout
        cases hlayout
      · exact hrest x hx hlayout
    · rw [if_neg hy] at h
      obtain ⟨hlo, -, -, hbehind⟩ := h
      obtain ⟨hle, hrest⟩ := ih hbehind
      have hstop : y.start ≤ y.stop := Nat.le_add_right _ _
      refine ⟨by omega, fun x hx hlayout => ?_⟩
      rcases List.mem_cons.mp hx with rfl | hx
      · exact hle
      · exact hrest x hx hlayout

/-- Lexemes between two offsets do not overlap. -/
theorem Within.ordered {lexemes : List Lexeme} {lo hi : Nat} (h : Within source lo hi lexemes) :
    (lexemes.filter (!·.isLayout)).Pairwise fun x y => x.stop ≤ y.start := by
  induction lexemes generalizing lo with
  | nil => exact List.Pairwise.nil
  | cons y rest ih =>
    rw [Within] at h
    by_cases hy : y.isLayout = true
    · rw [if_pos hy] at h
      rw [List.filter_cons_of_neg (by simp [hy])]
      exact ih h
    · rw [if_neg hy] at h
      rw [List.filter_cons_of_pos (by simp [hy]), List.pairwise_cons]
      refine ⟨fun x hx => ?_, ih h.2.2.2⟩
      obtain ⟨hx, hlayout⟩ := List.mem_filter.mp hx
      exact (h.2.2.2.forall_mem x hx (by simpa using hlayout)).1

/-- Lexemes between two offsets spell the source. -/
theorem Within.spelling {lexemes : List Lexeme} {lo hi : Nat} (h : Within source lo hi lexemes) :
    Spelling source lexemes ∧ ∀ x ∈ lexemes, x.isLayout = false → x.Solid :=
  ⟨⟨h.ordered, fun x hx hlayout => (h.forall_mem x hx hlayout).2.1⟩,
    fun x hx hlayout => (h.forall_mem x hx hlayout).2.2⟩

/-- Reading can go on at `pos`, and what it reads starts at `lo` or behind. An open string has come
from where it starts to where reading goes on, and it holds its quote. -/
def Ready (source : Text) (st : State) (lo pos : Nat) : Prop :=
  match st.openString with
  | none => lo ≤ pos
  | some s => lo ≤ s.start ∧ s.start + s.text.length = pos ∧ s.text.any isQuote = true
    ∧ source.slice s.start pos = s.text

/-! ## Shapes

Whatever stands at a place is at least one character long, and a string holds a quote. -/

theorem decimalLength?_pos {t : Text} {n : Nat} (h : decimalLength? t = some n) : 0 < n := by
  unfold decimalLength? at h
  split at h
  · split at h
    · cases h; omega
    · simp at h
  · simp at h

theorem pointLength?_pos {t : Text} {n : Nat} (h : pointLength? t = some n) : 0 < n := by
  unfold pointLength? at h
  split at h
  · split at h
    · cases h; omega
    · simp at h
  · split at h
    · obtain ⟨m, -, rfl⟩ := Option.map_eq_some_iff.mp h
      omega
    · simp at h

theorem floatLength?_pos {t : Text} {n : Nat} (h : floatLength? t = some n) : 0 < n := by
  unfold floatLength? at h
  split at h
  · next whole hwhole =>
    have := pointLength?_pos hwhole
    cases h
    omega
  · cases hd : decimalLength? t with
    | none => simp [hd] at h
    | some whole =>
      have := decimalLength?_pos hd
      cases he : exponentLength? (t.drop whole) with
      | none => simp [hd, he] at h
      | some e =>
        simp only [hd, he, Option.bind_eq_bind, Option.bind_some, Option.some.injEq] at h
        omega

/-- What holds of both sides of an alternative holds of what comes out. -/
theorem of_orElse {α : Type} {P : α → Prop} {x y : Option α} (hx : ∀ a, x = some a → P a)
    (hy : ∀ a, y = some a → P a) : ∀ a, (x <|> y) = some a → P a := by
  intro a ha
  cases x with
  | none => exact hy a ha
  | some b => exact hx a ha

theorem imaginaryLength?_pos {t : Text} {n : Nat} (h : imaginaryLength? t = some n) : 0 < n := by
  unfold imaginaryLength? at h
  refine of_orElse ?_ ?_ n h
  all_goals
    intro m hm
    obtain ⟨whole, -, hmarked⟩ := Option.bind_eq_some_iff.mp hm
    split at hmarked
    · split at hmarked
      · cases hmarked; omega
      · simp at hmarked
    · simp at hmarked

theorem radixLength?_pos {mark capital : Char} {digit : Char → Bool} {t : Text} {n : Nat}
    (h : radixLength? mark capital digit t = some n) : 0 < n := by
  unfold radixLength? at h
  split at h
  · dsimp only at h
    split at h
    · cases h; omega
    · simp at h
  · simp at h

theorem wholeLength?_pos {t : Text} {n : Nat} (h : wholeLength? t = some n) : 0 < n := by
  unfold wholeLength? at h
  refine of_orElse (fun _ => radixLength?_pos) ?_ n h
  refine of_orElse (fun _ => radixLength?_pos) ?_
  refine of_orElse (fun _ => radixLength?_pos) ?_
  intro m hw
  split at hw
  · split at hw
    · cases hw; omega
    · split at hw
      · cases hw; omega
      · simp at hw
  · simp at hw

theorem numberLength?_pos {t : Text} {n : Nat} (h : numberLength? t = some n) : 0 < n := by
  unfold numberLength? at h
  refine of_orElse (fun _ => imaginaryLength?_pos) ?_ n h
  exact of_orElse (fun _ => floatLength?_pos) fun _ => wholeLength?_pos

theorem lineEndLength?_pos {t : Text} {n : Nat} (h : lineEndLength? t = some n) : 0 < n := by
  unfold lineEndLength? at h
  split at h
  · cases h; omega
  · cases h; omega
  · simp at h

theorem operatorLength?_pos {t : Text} {n : Nat} (h : operatorLength? t = some n) : 0 < n := by
  obtain ⟨operator, hfind, rfl⟩ := Option.map_eq_some_iff.mp h
  -- none of the operators in the table is empty
  have hall : ∀ x ∈ operators, 0 < x.length := by decide
  exact hall operator (List.mem_of_find?_eq_some hfind)

/-- A string at the beginning of a text opens with three quotes, or its line closes it or carries it
on. -/
theorem stringShape?_cases {t : Text} {shape : Shape} {n : Nat}
    (h : stringShape? t = some (shape, n)) :
    ∃ letters quote, quoteAt? t = some (letters, quote)
      ∧ (shape = .tripleOpening quote ∧ [quote, quote, quote] <+: t.drop letters ∧ n = letters + 3
        ∨ ∃ m, n = letters + 1 + m
          ∧ (shape = .literal ∧ literalEnd quote (t.drop (letters + 1)) = .closed m
            ∨ shape = .openLiteral quote
              ∧ literalEnd quote (t.drop (letters + 1)) = .continued m)) := by
  unfold stringShape? at h
  obtain ⟨⟨letters, quote⟩, hquote, h⟩ := Option.bind_eq_some_iff.mp h
  refine ⟨letters, quote, hquote, ?_⟩
  dsimp only at h
  split at h
  · next hopening =>
    cases h
    exact Or.inl ⟨rfl, List.isPrefixOf_iff_prefix.mp hopening, rfl⟩
  · split at h
    · next m hend =>
      cases h
      exact Or.inr ⟨m, rfl, Or.inl ⟨rfl, hend⟩⟩
    · next m hend =>
      cases h
      exact Or.inr ⟨m, rfl, Or.inr ⟨rfl, hend⟩⟩
    · cases h

/-- A string or its opening reaches beyond its quote. -/
theorem stringShape?_beyond {t : Text} {shape : Shape} {n : Nat}
    (h : stringShape? t = some (shape, n)) :
    ∃ letters quote, quoteAt? t = some (letters, quote) ∧ letters + 1 ≤ n := by
  obtain ⟨letters, quote, hquote, ⟨-, -, rfl⟩ | ⟨m, rfl, -⟩⟩ := stringShape?_cases h
  · exact ⟨letters, quote, hquote, by omega⟩
  · exact ⟨letters, quote, hquote, by omega⟩

/-- What it means for a shape of `n` characters to stand at the beginning of a text. -/
def Stands (t : Text) (n : Nat) : Shape → Prop
  | .continuation => ∃ rest m, t = '\\' :: rest ∧ lineEndLength? rest = some m ∧ n = 1 + m
  | .comment => ∃ rest, t = '#' :: rest ∧ n = (t.takeWhile fun c => c != '\r' && c != '\n').length
  | .tripleOpening quote => stringShape? t = some (.tripleOpening quote, n)
  | .number => numberLength? t = some n
  | .lineEnd => lineEndLength? t = some n
  | .operator => operatorLength? t = some n
  | .literal => stringShape? t = some (.literal, n)
  | .openLiteral quote => stringShape? t = some (.openLiteral quote, n)
  | .word => n = (t.takeWhile Unicode.isWord).length ∧ 0 < n

/-- **What was found at a place stands there.** This says for each shape what must be in the text,
so that later arguments about a lexeme need not open the search for shapes. -/
theorem stands_of_shape? {t : Text} {shape : Shape} {n : Nat} (h : shape? t = some (shape, n)) :
    Stands t n shape := by
  have hmeasured : ∀ {kind : Shape} {x : Option Nat}, (∀ m, x = some m → Stands t m kind) →
      ∀ p : Shape × Nat, x.map (kind, ·) = some p → Stands t p.2 p.1 := by
    intro kind x hx p hp
    obtain ⟨m, hm, rfl⟩ := Option.map_eq_some_iff.mp hp
    exact hx m hm
  unfold shape? at h
  split at h
  · simp at h
  -- a backslash, and behind it a line end
  · next rest =>
    obtain ⟨m, hm, heq⟩ := Option.map_eq_some_iff.mp h
    cases heq
    exact ⟨rest, m, rfl, hm, rfl⟩
  -- a mark for a comment
  · next rest =>
    cases h
    exact ⟨rest, rfl, rfl⟩
  -- all else is tried in turn, and the first that can be measured is taken
  · refine of_orElse (P := fun p => Stands t p.2 p.1) (hmeasured fun _ => id) ?_ (shape, n) h
    refine of_orElse (hmeasured fun _ => id) ?_
    refine of_orElse (hmeasured fun _ => id) ?_
    refine of_orElse (fun p hp => ?_) fun p hp => ?_
    · -- only strings have the shape of a string
      obtain ⟨kind, m⟩ := p
      obtain ⟨letters, quote, -, ⟨rfl, -, -⟩ | ⟨_, -, ⟨rfl, -⟩ | ⟨rfl, -⟩⟩⟩ := stringShape?_cases hp
      · exact hp
      · exact hp
      · exact hp
    · dsimp only at hp
      split at hp
      · cases hp
      · next hrun =>
        cases hp
        exact ⟨rfl, List.length_pos_iff.mpr (by simpa using hrun)⟩

/-- **Every shape has a length.** So reading gets on, and a lexeme is not empty. -/
theorem shape?_pos {t : Text} {shape : Shape} {n : Nat} (h : shape? t = some (shape, n)) :
    0 < n := by
  have hstring : ∀ {shape : Shape}, stringShape? t = some (shape, n) → 0 < n := by
    intro shape hshape
    obtain ⟨letters, quote, -, hle⟩ := stringShape?_beyond hshape
    omega
  have hstands := stands_of_shape? h
  cases shape with
  | continuation =>
    obtain ⟨rest, m, -, -, rfl⟩ := hstands
    omega
  | comment =>
    obtain ⟨rest, rfl, rfl⟩ := hstands
    simp
  | number => exact numberLength?_pos hstands
  | lineEnd => exact lineEndLength?_pos hstands
  | operator => exact operatorLength?_pos hstands
  | tripleOpening quote => exact hstring hstands
  | literal => exact hstring hstands
  | openLiteral quote => exact hstring hstands
  | word => exact hstands.2

/-- Longer beginnings hold what shorter ones hold. -/
theorem any_take_mono {p : Char → Bool} {m n : Nat} (hmn : m ≤ n)
    (h : (t.take m).any p = true) : (t.take n).any p = true := by
  obtain ⟨c, hc, hp⟩ := List.any_eq_true.mp h
  exact List.any_eq_true.mpr ⟨c, List.take_subset_take_left t hmn hc, hp⟩

/-- The letters before a string end with its quote. -/
theorem quoteAt?_any {letters : Nat} {quote : Char} (h : quoteAt? t = some (letters, quote)) :
    (t.take (letters + 1)).any isQuote = true := by
  unfold quoteAt? at h
  dsimp only at h
  split at h
  · next q rest hdrop =>
    split at h
    · next hquote =>
      cases h
      rw [Bool.and_eq_true] at hquote
      refine List.any_eq_true.mpr ⟨quote, ?_, hquote.1⟩
      rw [List.take_add, hdrop]
      simp
    · simp at h
  · simp at h

/-- **Every string shape holds a quote.** The quote is what is kept of a string when the letters
before it are told apart. -/
theorem shape?_quoted {shape : Shape} {n : Nat} (h : shape? t = some (shape, n))
    (hshape : shape.isString = true) : (t.take n).any isQuote = true := by
  have hstring : ∀ {shape : Shape}, stringShape? t = some (shape, n) →
      (t.take n).any isQuote = true := by
    intro shape hshape
    obtain ⟨letters, quote, hquote, hle⟩ := stringShape?_beyond hshape
    exact any_take_mono hle (quoteAt?_any hquote)
  have hstands := stands_of_shape? h
  cases shape with
  | tripleOpening quote => exact hstring hstands
  | literal => exact hstring hstands
  | openLiteral quote => exact hstring hstands
  | _ => cases hshape

/-! ## Steps

What a step that begins at `pos` with `t` left of the line may do: read a lexeme from there, or open
a string that takes all that is left. -/

/-- A step reads within what is left of the line. -/
structure Sound (source : Text) (pos : Nat) (t : Text) (s : Step) : Prop where
  /-- Its lexeme is what the source has from `pos` on. -/
  lexeme : ∀ x ∈ s.lexeme, x.isLayout = false ∧ pos ≤ x.start ∧ x.Spells source ∧ x.Solid
    ∧ x.stop ≤ pos + min s.used t.length
  /-- If it leaves a string open, it has read to the end of the line. -/
  string : s.state.openString = none
    ∨ s.lexeme = none ∧ t.length ≤ s.used ∧ Ready source s.state pos (pos + t.length)

/-- A step that reads a lexeme reads what the source has at its place, if it reads anything and
leaves no string open. -/
theorem At.sound_take (h : At source pos t) (ht : t ≠ []) {kind : LexemeKind} {n : Nat} {st : State}
    (hkind : kind ≠ .indent ∧ kind ≠ .dedent) (hn : 0 < n) (hst : st.openString = none)
    (hquote : kind = .string → (t.take n).any isQuote = true) :
    Sound source pos t ⟨some ⟨kind, t.take n, pos⟩, st, n⟩ where
  lexeme := by
    intro x hx
    obtain rfl := Option.some.inj hx
    refine ⟨by simp [isLayout, hkind], Nat.le_refl _, h.spells_take kind n,
      solid_take hn ht hquote, ?_⟩
    simp only [Lexeme.stop, List.length_take]
    omega
  string := Or.inl hst

/-- A step that opens a string takes the rest of the line, and with it the quote. -/
theorem At.sound_open (h : At source pos t) (hquote : t.any isQuote = true) (st : State)
    (quote : Char) (triple : Bool) (hst : st.openString = some ⟨pos, t, quote, triple⟩) :
    Sound source pos t ⟨none, st, t.length⟩ where
  lexeme := by simp
  string := by
    refine Or.inr ⟨rfl, Nat.le_refl _, ?_⟩
    rw [Ready, hst]
    refine ⟨Nat.le_refl _, rfl, hquote, ?_⟩
    rw [h.slice_eq (Nat.le_refl _), List.take_length]

/-- Whatever shape stands at a place, the step that reads it is sound. The shapes are of two kinds:
most give a lexeme or skip some text, and two open a string. -/
theorem At.sound_readShape (h : At source pos t) (ht : t ≠ []) {st : State}
    (hst : st.openString = none) (shape : Shape) {n : Nat} (hn : 0 < n)
    (hquote : shape.isString = true → (t.take n).any isQuote = true) :
    Sound source pos t (readShape st pos t shape n) := by
  have hwhole : shape.isString = true → t.any isQuote = true := by
    intro hshape
    obtain ⟨c, hc, hp⟩ := List.any_eq_true.mp (hquote hshape)
    exact List.any_eq_true.mpr ⟨c, List.mem_of_mem_take hc, hp⟩
  -- a shape makes one lexeme of its first characters, or it opens a string
  cases shape with
  | continuation => exact ⟨by simp [readShape], Or.inl hst⟩
  | comment => exact h.sound_take ht (by simp) hn hst (by simp)
  | number => exact h.sound_take ht (by simp) hn hst (by simp)
  | lineEnd => exact h.sound_take ht (by split <;> simp) hn hst (by split <;> simp)
  | operator => exact h.sound_take ht (by simp) hn hst (by simp)
  | literal => exact h.sound_take ht (by simp) hn hst fun _ => hquote rfl
  | openLiteral quote => exact h.sound_open (hwhole rfl) _ quote false rfl
  | tripleOpening quote =>
    rw [readShape]
    split
    · exact h.sound_take ht (by simp) (by omega) hst fun _ =>
        any_take_mono (Nat.le_add_right _ _) (hquote rfl)
    · exact h.sound_open (hwhole rfl) _ quote true rfl
  | word => exact h.sound_take ht (by split <;> simp) hn hst (by split <;> simp)

/-- Every step is sound. Where no shape stands, one character is read for an error, so that reading
gets on there too. -/
theorem At.sound_step (h : At source pos t) (ht : t ≠ []) {st : State}
    (hst : st.openString = none) : Sound source pos t (step st pos t) := by
  rw [step]
  split
  · -- nothing but blanks is left
    exact ⟨by simp, Or.inl hst⟩
  · next c rest hdrop =>
    split
    · next shape n hshape =>
      -- the shape stands behind the blanks
      have hlen : (t.takeWhile isSpacing).length ≤ t.length :=
        (List.takeWhile_prefix _).length_le
      have hbehind := h.drop hlen
      rw [hdrop] at hbehind
      have hsound := hbehind.sound_readShape (by simp) hst shape (shape?_pos hshape)
        (shape?_quoted hshape)
      have hleft := congrArg List.length hdrop
      rw [List.length_drop] at hleft
      refine ⟨?_, ?_⟩
      · intro x hx
        obtain ⟨hlayout, hstart, hspells, hsolid, hstop⟩ := hsound.lexeme x hx
        exact ⟨hlayout, by omega, hspells, hsolid, by dsimp only; omega⟩
      · rcases hsound.string with hnone | ⟨hnone, hused, hready⟩
        · exact Or.inl hnone
        · refine Or.inr ⟨hnone, by dsimp only; omega, ?_⟩
          rw [← hleft] at hready
          rw [Ready] at hready ⊢
          dsimp only
          split
          · omega
          · next s hopen =>
            -- the string begins behind the blanks and takes all that is left
            rw [hopen] at hready
            obtain ⟨hlo, hend, hne, hslice⟩ := hready
            have hpos : pos + (t.takeWhile isSpacing).length
                + (t.length - (t.takeWhile isSpacing).length) = pos + t.length := by omega
            rw [hpos] at hend hslice
            exact ⟨by omega, hend, hne, hslice⟩
    · exact h.sound_take ht (by simp) Nat.one_pos hst (by simp)

/-! ## Lines -/

/-- The lexemes of a line lie between two offsets, and reading can go on behind the line. -/
def ReadsTo (source : Text) (lo stop : Nat) (read : List Lexeme × State) : Prop :=
  ∃ mid, Within source lo mid read.1 ∧ Ready source read.2 mid stop

theorem readsTo_nil {st : State} {lo stop : Nat} (h : Ready source st lo stop) :
    ReadsTo source lo stop ([], st) := ⟨lo, Nat.le_refl _, h⟩

theorem ReadsTo.cons {read : List Lexeme × State} {x : Lexeme} {lo lo' stop : Nat}
    (h : ReadsTo source lo' stop read) (hlo : lo ≤ x.start) (hspells : x.Spells source)
    (hsolid : x.Solid) (hstop : x.stop ≤ lo') : ReadsTo source lo stop (x :: read.1, read.2) := by
  obtain ⟨mid, hwithin, hready⟩ := h
  exact ⟨mid, (within_singleton hlo hspells hsolid hstop).append hwithin, hready⟩

/-- The rest of a line, behind its first `k` characters. The induction is on how much is left; each
step is sound, and what it leaves is a shorter rest, or nothing if it opened a string. -/
theorem At.readsTo_restOfLine (h : At source pos t) (st : State) (hst : st.openString = none)
    (k : Nat) : ReadsTo source (pos + min k t.length) (pos + t.length)
      (restOfLine st (pos + k) (t.drop k)) := by
  -- on what is left of the line; a step reads at least one character
  induction hleft : t.length - k using Nat.strongRecOn generalizing k st with
  | _ left ih =>
    cases hdrop : t.drop k with
    | nil =>
      have hk : t.length ≤ k := List.drop_eq_nil_iff.mp hdrop
      rw [restOfLine]
      refine readsTo_nil ?_
      rw [Ready, hst]
      omega
    | cons c rest =>
      have hlen := congrArg List.length hdrop
      rw [List.length_drop, List.length_cons] at hlen
      have hat := h.drop (k := k) (by omega)
      rw [hdrop] at hat
      have hsound := hat.sound_step (by simp) hst
      rw [restOfLine]
      dsimp only
      generalize step st (pos + k) (c :: rest) = s at hsound
      -- what the step leaves of the line
      have hrest : (c :: rest).drop (max 1 s.used) = t.drop (k + max 1 s.used) := by
        rw [← hdrop, List.drop_drop]
      have hmin : min k t.length = k := by omega
      rw [hrest, Nat.add_assoc, hmin]
      rcases hsound.string with hnone | ⟨hnone, hused, hready⟩
      · have hread := ih _ (by omega) s.state hnone (k + max 1 s.used) rfl
        cases hlexeme : s.lexeme with
        | none =>
          obtain ⟨mid, hwithin, hready⟩ := hread
          exact ⟨mid, hwithin.mono (by omega) (Nat.le_refl _), hready⟩
        | some x =>
          obtain ⟨-, hstart, hspells, hsolid, hstop⟩ := hsound.lexeme x hlexeme
          refine hread.cons hstart hspells hsolid ?_
          simp only [List.length_cons] at hstop
          omega
      · -- the string that was opened leaves nothing of the line
        have hend : t.drop (k + max 1 s.used) = [] := by
          rw [List.drop_eq_nil_iff]
          simp only [List.length_cons] at hused
          omega
        rw [hend, hnone]
        rw [restOfLine]
        refine readsTo_nil ?_
        rw [List.length_cons, Nat.add_assoc] at hready
        have hstop : pos + (k + (rest.length + 1)) = pos + t.length := by omega
        exact hstop ▸ hready

/-- A line that begins with no string open, read from its first character on. -/
theorem At.readsTo_line (h : At source pos t) (st : State) (hst : st.openString = none) :
    ReadsTo source pos (pos + t.length) (restOfLine st pos t) := by
  simpa using h.readsTo_restOfLine st hst 0

/-- What is read starts before reading goes on. -/
theorem Ready.le {st : State} {lo pos : Nat} (h : Ready source st lo pos) : lo ≤ pos := by
  rw [Ready] at h
  split at h
  · exact h
  · obtain ⟨hlo, hend, -⟩ := h
    omega

/-- An open string with some characters more. -/
theorem Ready.append {st : State} {lo : Nat} {s : OpenString} (hready : Ready source st lo pos)
    (hopen : st.openString = some s) (h : At source pos t) (n : Nat) :
    lo ≤ s.start ∧ s.start + (s.text ++ t.take n).length = pos + min n t.length
      ∧ (s.text ++ t.take n).any isQuote = true
      ∧ source.slice s.start (pos + min n t.length) = s.text ++ t.take n := by
  rw [Ready, hopen] at hready
  obtain ⟨hlo, hend, hquote, hslice⟩ := hready
  have htake : t.take (min n t.length) = t.take n := by
    rw [List.take_eq_take_iff]
    omega
  refine ⟨hlo, ?_, by rw [List.any_append, hquote, Bool.true_or], ?_⟩
  · rw [List.length_append, List.length_take]
    omega
  · rw [← source.slice_append_slice (b := pos) (by omega) (by omega), hslice,
      h.slice_eq (by omega), htake]

/-- A line on which a string is open. It closes the string, and the rest of the line is read; or it
is put to the string, which goes on or, if that must not be, is given up as an error. -/
theorem At.readsTo_stringLine (h : At source pos t) {st : State} {s : OpenString} {lo : Nat}
    (hopen : st.openString = some s) (hready : Ready source st lo pos) :
    ReadsTo source lo (pos + t.length) (stringLine st s pos t) := by
  have hle := h.length_le
  have hspells : ∀ (kind : LexemeKind) (n : Nat),
      lo ≤ s.start ∧ Spells ⟨kind, s.text ++ t.take n, s.start⟩ source
        ∧ Solid ⟨kind, s.text ++ t.take n, s.start⟩
        ∧ Lexeme.stop ⟨kind, s.text ++ t.take n, s.start⟩ = pos + min n t.length := by
    intro kind n
    obtain ⟨hlo, hend, hquote, hslice⟩ := hready.append hopen h n
    refine ⟨hlo, ⟨?_, ?_⟩, ⟨fun _ hnil => ?_, fun _ => hquote⟩, hend⟩
    · simp only [Lexeme.stop]
      omega
    · simp only [Lexeme.stop]
      rw [hend, hslice]
    · rw [show s.text ++ t.take n = [] from hnil] at hquote
      simp at hquote
  rw [stringLine]
  split
  · next n hclose =>
    -- the string closes, and the line goes on behind it
    obtain ⟨hlo, hspell, hsolid, hstop⟩ := hspells .string n
    exact (h.readsTo_restOfLine _ rfl n).cons hlo hspell hsolid (Nat.le_of_eq hstop)
  · split
    · -- a line without the backslash it needs ends the string as an error
      obtain ⟨hlo, hspell, hsolid, hstop⟩ := hspells .error t.length
      rw [List.take_length] at hspell hsolid hstop
      rw [Nat.min_self] at hstop
      exact (readsTo_nil (Nat.le_refl _)).cons hlo hspell hsolid (Nat.le_of_eq hstop)
    · obtain ⟨hlo, hend, hquote, hslice⟩ := hready.append hopen h t.length
      rw [List.take_length, Nat.min_self] at hend hslice
      rw [List.take_length] at hquote
      exact readsTo_nil ⟨hlo, hend, hquote, hslice⟩

/-- A line that holds a comment only, or nothing. It has two lexemes at most, the comment and the
line end, and no state changes by it. -/
theorem At.within_commentLine (h : At source pos t) :
    Within source pos (pos + t.length) (commentLine pos t) := by
  have hwhole : Within source pos (pos + t.length) [⟨.lineBreak, t, pos⟩] := by
    refine within_singleton (Nat.le_refl _) ?_ (solid_of_isLineEnd rfl) (Nat.le_refl _)
    simpa using h.spells_take .lineBreak t.length
  rw [commentLine]
  split
  · next hhash =>
    generalize hcomment :
      (t.reverse.dropWhile fun c => decide (c = '\r') || decide (c = '\n')).reverse = comment
    have hprefix : comment <+: t := by
      rw [← hcomment, ← List.reverse_suffix, List.reverse_reverse]
      exact List.dropWhile_suffix _
    have htake : t.take comment.length = comment := (List.prefix_iff_eq_take.mp hprefix).symm
    have hlen := hprefix.length_le
    have hsolid : comment ≠ [] := by
      -- the hash sign is no line end
      intro hnil
      rw [hnil, List.reverse_eq_nil_iff, List.dropWhile_eq_nil_iff] at hcomment
      have := hcomment '#' (List.mem_reverse.mpr (List.mem_of_mem_head? hhash))
      simp at this
    have hspells := h.spells_take .comment comment.length
    have hrest := (h.drop hlen).spells_take .lineBreak (t.drop comment.length).length
    rw [htake] at hspells
    rw [List.take_length] at hrest
    refine (within_singleton (Nat.le_refl _) hspells ⟨fun _ => hsolid, by simp⟩
      (Nat.le_refl _)).append
      (within_singleton (Nat.le_refl _) hrest (solid_of_isLineEnd rfl) ?_)
    simp only [Lexeme.stop, List.length_drop]
    omega
  · exact hwhole

theorem isLayout_of_reindent? {indents : List Nat} {indentation : Text}
    {changes : List Lexeme} {opened : List Nat}
    (h : reindent? indents pos indentation = some (changes, opened)) :
    ∀ x ∈ changes, x.isLayout = true := by
  unfold reindent? at h
  dsimp only at h
  split at h
  · cases h
    simp [isLayout]
  · split at h
    · split at h
      · cases h
        intro x hx
        rw [List.eq_of_mem_replicate hx]
        rfl
      · simp at h
    · cases h
      simp

theorem isLayout_of_mem_closeBlocks {st : State} : ∀ x ∈ closeBlocks st pos, x.isLayout = true := by
  intro x hx
  rw [closeBlocks] at hx
  rw [List.eq_of_mem_replicate hx]
  rfl

/-- A line that begins with no string and no bracket open. Its indentation is skipped, and the marks
for it take no room. -/
theorem At.readsTo_newLine (h : At source pos t) {st st' : State} {lexemes : List Lexeme} {lo : Nat}
    (hst : st.openString = none) (hlo : lo ≤ pos) (hline : newLine st pos t = .onward lexemes st') :
    ReadsTo source lo (pos + t.length) (lexemes, st') := by
  have hlen : (t.takeWhile isSpacing).length ≤ t.length := (List.takeWhile_prefix _).length_le
  have hbehind := h.drop hlen
  unfold newLine at hline
  dsimp only at hline
  split at hline
  · -- a line of blanks alone ends reading
    cases hline
  · next c rest hdrop =>
    have hleft := congrArg List.length hdrop
    rw [List.length_drop] at hleft
    rw [hdrop] at hbehind
    have hstop : pos + (t.takeWhile isSpacing).length + (c :: rest).length = pos + t.length := by
      omega
    split at hline
    · -- a comment or an empty line
      cases hline
      have hwithin := hbehind.within_commentLine
      rw [hstop] at hwithin
      refine ⟨_, hwithin.mono (by omega) (Nat.le_refl _), ?_⟩
      simp [Ready, hst]
    · split at hline
      · cases hline
      -- the marks are fed before the line itself, and hold no text
      · next changes indents hchanges =>
        cases hline
        obtain ⟨mid, hwithin, hready⟩ := hbehind.readsTo_line { st with indents } hst
        rw [hstop] at hready
        exact ⟨mid, (within_of_layout (by omega) (isLayout_of_reindent? hchanges)).append hwithin,
          hready⟩

/-- **One line.** Whatever the state before a line, its lexemes lie in order behind all lexemes
before it, and reading can go on. -/
theorem At.readsTo_lexLine (h : At source pos t) {st st' : State} {lexemes : List Lexeme} {lo : Nat}
    (hready : Ready source st lo pos) (hline : lexLine st pos t = .onward lexemes st') :
    ReadsTo source lo (pos + t.length) (lexemes, st') := by
  unfold lexLine at hline
  split at hline
  · next s hopen =>
    cases hline
    exact h.readsTo_stringLine hopen hready
  · next hopen =>
    split at hline
    · exact h.readsTo_newLine hopen hready.le hline
    · cases hline
      obtain ⟨mid, hwithin, hnext⟩ := h.readsTo_line { st with continued := false } hopen
      exact ⟨mid, hwithin.mono hready.le (Nat.le_refl _), hnext⟩

/-! ## The whole source -/

/-- At the end of the source there is room for a line end and the end of blocks. -/
theorem within_endOfSource {st : State} {lo : Nat} (hready : Ready source st lo source.length)
    (last : Text) : Within source lo source.length (endOfSource st source.length last).lexemes := by
  rw [endOfSource]
  split
  · exact hready.le
  · split
    · refine Within.append ?_ (within_of_layout (Nat.le_refl source.length)
        isLayout_of_mem_closeBlocks)
      split
      · refine within_singleton hready.le ⟨Nat.le_refl _, ?_⟩ (solid_of_isLineEnd rfl)
          (Nat.le_refl _)
        simp [Text.slice, Lexeme.stop]
      · exact hready.le
    · exact hready.le

/-- All lines lie in order in the source. The induction is on the lines that are left, with a string
that is open from one to the next in what reading can go on with (`Ready`). -/
theorem within_lexLines {lines : List Text} {st : State} {lo : Nat} (last : Text)
    (h : source.drop pos = lines.flatten) (hpos : pos ≤ source.length)
    (hready : Ready source st lo pos) :
    Within source lo source.length (lexLines st pos last lines).lexemes := by
  induction lines generalizing st lo pos last with
  | nil =>
    have hend : pos = source.length := by
      rw [List.flatten_nil, List.drop_eq_nil_iff] at h
      omega
    subst hend
    exact within_endOfSource hready last
  | cons line rest ih =>
    rw [List.flatten_cons] at h
    have hat : At source pos line := ⟨hpos, h ▸ List.prefix_append _ _⟩
    rw [lexLines]
    split
    · next lexemes st' hline =>
      obtain ⟨mid, hwithin, hnext⟩ := hat.readsTo_lexLine hready hline
      refine hwithin.append (ih line ?_ hat.length_le hnext)
      rw [← List.drop_drop, h, List.drop_left]
    · exact within_of_layout (Nat.le_trans hready.le hpos) isLayout_of_mem_closeBlocks
    · exact Nat.le_trans hready.le hpos

theorem within_lex (source : Text) : Within source 0 source.length (lex source).lexemes :=
  within_lexLines [] source.flatten_lines.symm (Nat.zero_le _) (Nat.le_refl 0)

end Lexer

/-- **The lexemes spell the source.** They come in its order, none overlaps another one, and each is
what the source has at its place. -/
theorem lex_spelling (source : Text) : Lexeme.Spelling source (lex source).lexemes :=
  (Lexer.within_lex source).spelling.1

/-- No lexeme but a line end or a mark for indentation is empty, and each string holds a quote. -/
theorem lex_solid (source : Text) :
    ∀ x ∈ (lex source).lexemes, x.isLayout = false → x.Solid :=
  (Lexer.within_lex source).spelling.2

end Orthography
