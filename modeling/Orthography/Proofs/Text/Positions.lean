/-
Offsets and positions are in the same order.

A position is a line and a column. Which position an offset has is said here of the text alone: the
line by the line feeds before the offset, the column by the distance from the last of them
(`Text.row`, `Text.column`). Going on in a text either stays in the line and adds to the column, or
it leaves the line (`Text.position_lt`), and that is the order of positions. Main statement,
`LineIndex.lineColumn?_orderIso`: the index gives every offset of a text its position and no other
number any, each place in each line is the position of an offset, the two ways undo each other, and
they keep the order.

The index counts the starts of lines up to an offset. The starts ascend, so halving the row finds
the same number (`LineIndex.search_starts`).
-/
import Mathlib.Data.List.Basic
import Mathlib.Data.List.GetD
import Mathlib.Data.List.Induction
import Orthography.Lexeme.Notice
import Orthography.Proofs.Text.LineIndex
import Orthography.Proofs.Text.Lines

set_option autoImplicit false

namespace Orthography

/-- The order in which a text is read: by lines, and within a line by columns. -/
def LineColumn.Before (p q : LineColumn) : Prop :=
  p.line < q.line ∨ p.line = q.line ∧ p.column < q.column

/-! ## Positions in a text -/

namespace Text

variable {t : Text} {offset : Nat}

/-- The column of an offset is counted from the start of its line. -/
theorem startOf_add_column (h : offset ≤ t.length) :
    LineIndex.startOf t offset + t.column offset = offset := by
  have hlen : (t.take offset).length = offset := List.length_take_of_le h
  rw [LineIndex.startOf, column]
  conv_rhs => rw [← hlen]
  -- on what lies before the offset, from its end
  generalize t.take offset = before
  induction before using List.reverseRecOn with
  | nil => rfl
  | append_singleton before c ih =>
    rw [LineIndex.startsFrom_append, List.reverse_append, List.reverse_singleton,
      List.singleton_append, List.length_append, List.length_singleton, Nat.zero_add]
    by_cases hc : c = '\n'
    · -- a line starts behind the line feed
      have hstarts : LineIndex.startsFrom before.length [c] = [before.length + 1] := by
        rw [LineIndex.startsFrom, if_pos hc, LineIndex.startsFrom]
      rw [hstarts, ← List.cons_append, List.getLastD_concat,
        List.takeWhile_cons_of_neg (by simp [hc])]
      rfl
    · have hstarts : LineIndex.startsFrom before.length [c] = [] := by
        rw [LineIndex.startsFrom, if_neg hc, LineIndex.startsFrom]
      rw [hstarts, List.append_nil, List.takeWhile_cons_of_pos (by simp [hc]), List.length_cons,
        ← Nat.add_assoc, ih]

theorem column_of_beginsLine (h : t.BeginsLine offset) : t.column offset = 0 := by
  rw [column]
  rcases h with rfl | hlast
  · rfl
  · rw [List.getLast?_eq_head?_reverse] at hlast
    obtain ⟨behind, hbehind⟩ := List.head?_eq_some_iff.mp hlast
    rw [hbehind]
    rfl

theorem startOf_of_beginsLine (h : t.BeginsLine offset) (hle : offset ≤ t.length) :
    LineIndex.startOf t offset = offset := by
  have hsum := startOf_add_column hle
  rw [column_of_beginsLine h] at hsum
  exact hsum

theorem row_append_left (a b : Text) : row (a ++ b) a.length = 1 + a.count '\n' := by
  rw [row, List.take_left]

/-- Behind characters of the same line the column is larger by their number. -/
theorem column_append {line : Text} (hline : '\n' ∉ line) (a b : Text) :
    column (a ++ line ++ b) (a.length + line.length)
      = column (a ++ line ++ b) a.length + line.length := by
  have hrun : ∀ c ∈ line.reverse, (c != '\n') = true := by
    intro c hc
    simp only [bne_iff_ne, ne_eq]
    rintro rfl
    exact hline (List.mem_reverse.mp hc)
  have hbefore : (a ++ line ++ b).take a.length = a := by
    rw [List.append_assoc, List.take_left]
  rw [column, column, hbefore, ← List.length_append, List.take_left, List.reverse_append,
    List.takeWhile_append_of_pos hrun, List.length_append, List.length_reverse, Nat.add_comm]

/-- **Reading on.** A later offset is in a later line, or behind in the same line. It is enough to
look at what stands between the two, with or without a line feed in it. -/
theorem position_lt {offset' : Nat} (hlt : offset < offset') (h : offset' ≤ t.length) :
    t.row offset < t.row offset'
      ∨ t.row offset = t.row offset' ∧ t.column offset < t.column offset' := by
  obtain ⟨n, rfl⟩ := Nat.exists_eq_add_of_lt hlt
  have hlength : ((t.drop offset).take (n + 1)).length = n + 1 := by
    rw [List.length_take, List.length_drop]
    omega
  have htake : t.take (offset + (n + 1)) = t.take offset ++ (t.drop offset).take (n + 1) :=
    List.take_add
  by_cases hfeed : '\n' ∈ (t.drop offset).take (n + 1)
  · left
    have hpos := List.count_pos_iff.mpr hfeed
    rw [row, row, Nat.add_assoc, htake, List.count_append]
    omega
  · right
    have hzero := List.count_eq_zero.mpr hfeed
    constructor
    · rw [row, row, Nat.add_assoc, htake, List.count_append, hzero, Nat.add_zero]
    · have hsplit : t.take offset ++ (t.drop offset).take (n + 1) ++ t.drop (offset + (n + 1))
          = t := by
        rw [← htake, List.take_append_drop]
      have hbefore : (t.take offset).length = offset := List.length_take_of_le (by omega)
      have hcolumn := column_append hfeed (t.take offset) (t.drop (offset + (n + 1)))
      rw [hsplit, hlength, hbefore] at hcolumn
      rw [Nat.add_assoc, hcolumn]
      omega

/-! ## Lines without their line feeds -/

theorem split_cons_self (sep : Char) (t : Text) : split sep (sep :: t) = [] :: split sep t := by
  rw [split, if_pos rfl]

theorem exists_split_eq_cons (sep : Char) (t : Text) : ∃ part more, split sep t = part :: more := by
  cases t with
  | nil => exact ⟨[], [], rfl⟩
  | cons c t =>
    rw [split]
    split
    · exact ⟨_, _, rfl⟩
    · cases split sep t with
      | nil => exact ⟨_, _, rfl⟩
      | cons part more => exact ⟨_, _, rfl⟩

theorem split_cons_of_ne {sep c : Char} {part : Text} {more : List Text} (hc : c ≠ sep)
    (h : split sep t = part :: more) : split sep (c :: t) = (c :: part) :: more := by
  rw [split, if_neg hc, h]

theorem length_split (t : Text) : (split '\n' t).length = 1 + t.count '\n' := by
  induction t with
  | nil => rfl
  | cons c t ih =>
    by_cases hc : c = '\n'
    · rw [hc, split_cons_self, List.length_cons, ih, List.count_cons_self]
      omega
    · obtain ⟨part, more, hsplit⟩ := exists_split_eq_cons '\n' t
      rw [split_cons_of_ne hc hsplit, List.count_cons_of_ne (by simpa using hc), ← ih, hsplit]
      rfl

/-- What stands before a line: as many line feeds as there are lines before it, the last of them at
its end. -/
structure Precedes (before : Text) (l : Nat) : Prop where
  count : before.count '\n' = l
  begins : before = [] ∨ before.getLast? = some '\n'

namespace Precedes

variable {before : Text} {l : Nat}

theorem eq_nil (h : Precedes before 0) : before = [] := by
  refine h.begins.resolve_right fun hlast => ?_
  exact List.count_eq_zero.mp h.count (List.mem_of_getLast? hlast)

theorem getLast? (h : Precedes before (l + 1)) : before.getLast? = some '\n' := by
  refine h.begins.resolve_left ?_
  rintro rfl
  have hcount := h.count
  simp at hcount

theorem cons_feed (h : Precedes before l) : Precedes ('\n' :: before) (l + 1) := by
  refine ⟨by rw [List.count_cons_self, h.count], Or.inr ?_⟩
  rcases h.begins with rfl | hlast
  · rfl
  · rw [List.getLast?_cons, hlast]
    rfl

theorem cons {c : Char} (h : Precedes before (l + 1)) (hc : c ≠ '\n') :
    Precedes (c :: before) (l + 1) := by
  refine ⟨by rw [List.count_cons_of_ne (by simpa using hc), h.count], Or.inr ?_⟩
  rw [List.getLast?_cons, h.getLast?]
  rfl

end Precedes

/-- A line begins behind as many line feeds as there are lines before it. What has been read when
line `l` begins is `Precedes`, which has a step for each character. -/
theorem exists_of_split {l : Nat} {line : Text} (h : (split '\n' t)[l]? = some line) :
    ∃ before behind, t = before ++ line ++ behind ∧ Precedes before l ∧ '\n' ∉ line := by
  have hfirst : Precedes [] 0 := ⟨rfl, Or.inl rfl⟩
  induction t generalizing l line with
  | nil =>
    obtain ⟨rfl, rfl⟩ : l = 0 ∧ [] = line := by
      cases l with
      | zero => simpa [split] using h
      | succ l => simp [split] at h
    exact ⟨[], [], rfl, hfirst, by simp⟩
  | cons c t ih =>
    by_cases hc : c = '\n'
    · subst hc
      -- a line feed ends the first line, so line `l + 1` is line `l` of the rest
      rw [split_cons_self] at h
      cases l with
      | zero =>
        obtain rfl := Option.some.inj h
        exact ⟨[], '\n' :: t, rfl, hfirst, by simp⟩
      | succ l =>
        obtain ⟨before, behind, rfl, hbefore, hline⟩ := ih h
        exact ⟨'\n' :: before, behind, rfl, hbefore.cons_feed, hline⟩
    · -- the character belongs to the first line
      obtain ⟨part, more, hsplit⟩ := exists_split_eq_cons '\n' t
      rw [split_cons_of_ne hc hsplit] at h
      rw [hsplit] at ih
      cases l with
      | zero =>
        obtain rfl := Option.some.inj h
        obtain ⟨before, behind, rfl, hbefore, hline⟩ := ih (l := 0) rfl
        obtain rfl := hbefore.eq_nil
        exact ⟨[], behind, rfl, hfirst, List.not_mem_cons_of_ne_of_not_mem (Ne.symm hc) hline⟩
      | succ l =>
        obtain ⟨before, behind, rfl, hbefore, hline⟩ := ih (l := l + 1) h
        exact ⟨c :: before, behind, rfl, hbefore.cons hc, hline⟩

/-- Each place in each line is the position of an offset. -/
theorem exists_position {l k : Nat} {line : Text} (h : (split '\n' t)[l]? = some line)
    (hk : k ≤ line.length) :
    ∃ offset ≤ t.length, t.row offset = l + 1 ∧ t.column offset = k := by
  obtain ⟨before, behind, rfl, hbefore, hline⟩ := exists_of_split h
  obtain ⟨part, rest, rfl, rfl⟩ : ∃ part rest, line = part ++ rest ∧ part.length = k :=
    ⟨line.take k, line.drop k, (List.take_append_drop k line).symm, List.length_take_of_le hk⟩
  have hpart : '\n' ∉ part := fun hmem => hline (List.mem_append_left _ hmem)
  have hassoc : before ++ (part ++ rest) ++ behind = before ++ part ++ (rest ++ behind) := by
    simp only [List.append_assoc]
  rw [hassoc]
  refine ⟨before.length + part.length, ?_, ?_, ?_⟩
  · rw [List.length_append, List.length_append]
    omega
  · rw [← List.length_append, row_append_left, List.count_append, hbefore.count,
      List.count_eq_zero.mpr hpart]
    omega
  · have hstart : BeginsLine (before ++ part ++ (rest ++ behind)) before.length := by
      rw [BeginsLine, List.append_assoc, List.take_left]
      exact hbefore.begins.imp_left fun h => by rw [h]; rfl
    rw [column_append hpart, column_of_beginsLine hstart, Nat.zero_add]

end Text

/-! ## The index -/

namespace LineIndex

variable {t : Text}

theorem startsFrom_pairwise (offset : Nat) (t : Text) :
    (startsFrom offset t).Pairwise (· < ·) := by
  induction t generalizing offset with
  | nil => exact List.Pairwise.nil
  | cons c rest ih =>
    rw [startsFrom]
    split
    · exact List.pairwise_cons.mpr ⟨fun start hstart => (startsFrom_bounds hstart).1, ih _⟩
    · exact ih _

/-- Lines start one behind the other. -/
theorem starts_pairwise (t : Text) : (ofText t).starts.Pairwise (· < ·) :=
  List.pairwise_cons.mpr
    ⟨fun _ hstart => (startsFrom_bounds hstart).1, startsFrom_pairwise 0 t⟩

/-! ### Halving -/

/-- How many entries of an ascending row are at most `x`, if the number lies between `lo` and `hi`:
halving looks behind the middle entry if that is at most `x`, else before it. -/
def search (row : List Nat) (x lo hi : Nat) : Nat :=
  if lo < hi then
    if x < row.getD ((lo + hi) / 2) 0 then search row x lo ((lo + hi) / 2)
    else search row x ((lo + hi) / 2 + 1) hi
  else lo
termination_by hi - lo

section Search

variable {row : List Nat} {x : Nat}

/-- In a row that goes up, what lies below one member lies below all that follow it. So a halving of
the search may leave these out. -/
theorem lt_of_mem_drop (hrow : row.Pairwise (· < ·)) {i : Nat} (hi : i < row.length)
    (hx : x < row[i]) : ∀ start ∈ row.drop i, x < start := by
  have hbehind := hrow.drop (i := i)
  rw [List.drop_eq_getElem_cons hi] at hbehind ⊢
  intro start hstart
  rcases List.mem_cons.mp hstart with rfl | hstart
  · exact hx
  · exact Nat.lt_trans hx ((List.pairwise_cons.mp hbehind).1 start hstart)

/-- And what does not lie below one member does not lie below those before it. -/
theorem le_of_mem_take (hrow : row.Pairwise (· < ·)) {i : Nat} (hi : i < row.length)
    (hx : row[i] ≤ x) : ∀ start ∈ row.take (i + 1), start ≤ x := by
  have hbefore := hrow.take (i := i + 1)
  rw [List.take_add_one, List.getElem?_eq_getElem hi] at hbefore ⊢
  intro start hstart
  rcases List.mem_append.mp hstart with hstart | hstart
  · have hlt := (List.pairwise_append.mp hbefore).2.2 start hstart row[i] (by simp)
    omega
  · obtain rfl := List.mem_singleton.mp hstart
    exact hx

/-- Halving keeps what is known of the entries before `lo` and from `hi` on. When the two meet, the
entries up to the offset are those before it, as the filter has them. -/
theorem search_eq (hrow : row.Pairwise (· < ·)) {lo hi : Nat} (hle : lo ≤ hi)
    (hlength : hi ≤ row.length) (hlo : ∀ start ∈ row.take lo, start ≤ x)
    (hhi : ∀ start ∈ row.drop hi, x < start) :
    search row x lo hi = (row.filter (· ≤ x)).length := by
  fun_induction search row x lo hi with
  | case1 lo hi hlt hx ih =>
    have hmid : (lo + hi) / 2 < row.length := by omega
    rw [List.getD_eq_getElem _ _ hmid] at hx
    exact ih (by omega) (by omega) hlo (lt_of_mem_drop hrow hmid hx)
  | case2 lo hi hlt hx ih =>
    have hmid : (lo + hi) / 2 < row.length := by omega
    rw [List.getD_eq_getElem _ _ hmid] at hx
    exact ih (by omega) hlength (le_of_mem_take hrow hmid (by omega)) hhi
  | case3 lo hi hlt =>
    obtain rfl : lo = hi := by omega
    -- the halves have met, so the entries before `lo` are those up to the offset, and no other
    have hbefore : (row.take lo).filter (· ≤ x) = row.take lo :=
      List.filter_eq_self.mpr fun start hstart => decide_eq_true (hlo start hstart)
    have hbehind : (row.drop lo).filter (· ≤ x) = [] :=
      List.filter_eq_nil_iff.mpr fun start hstart => by
        have hlt := hhi start hstart
        simpa using hlt
    calc lo = (row.take lo).length := (List.length_take_of_le hlength).symm
      _ = ((row.take lo ++ row.drop lo).filter (· ≤ x)).length := by
        rw [List.filter_append, hbefore, hbehind, List.append_nil]
      _ = (row.filter (· ≤ x)).length := by rw [List.take_append_drop]

end Search

variable {offset : Nat}

/-- Halving the row of starts finds the line of an offset. -/
theorem search_starts (h : offset ≤ t.length) :
    search (ofText t).starts offset 0 (ofText t).lineCount = t.row offset := by
  rw [lineCount, search_eq (starts_pairwise t) (Nat.zero_le _) (Nat.le_refl _) (by simp) (by simp),
    filter_starts_ofText h, List.length_cons, length_startsFrom, Text.row, Nat.add_comm]

/-! ### Offsets and positions -/

theorem lineColumn?_eq_position (h : offset ≤ t.length) :
    (ofText t).lineColumn? offset = some ⟨t.row offset, t.column offset + 1⟩ := by
  have hsum := Text.startOf_add_column h
  have hcolumn : offset - startOf t offset = t.column offset := by omega
  rw [lineColumn?_ofText h, hcolumn, Text.row]

theorem offsetOf_position (h : offset ≤ t.length) :
    (ofText t).offsetOf (t.row offset) (t.column offset) = .ok offset := by
  have hsum := Text.startOf_add_column h
  have hback : min ((startOf t offset : Int) + (t.column offset : Nat)) (t.length : Int)
      = offset := by omega
  rw [Text.row, offsetOf_line h, hback]

theorem lineColumn?_eq_none_iff (t : Text) (offset : Int) :
    (ofText t).lineColumn? offset = none ↔ offset < 0 ∨ (t.length : Int) < offset := by
  have hlength : (ofText t).length = t.length := rfl
  rw [lineColumn?, hlength]
  split
  · next hout => exact iff_of_true rfl hout
  · next hwithin => exact iff_of_false (by simp) hwithin

/-- An offset that has a position lies in the text. -/
theorem exists_of_lineColumn? {offset : Int} {p : LineColumn}
    (hp : (ofText t).lineColumn? offset = some p) :
    ∃ n : Nat, offset = n ∧ n ≤ t.length ∧ p = ⟨t.row n, t.column n + 1⟩ := by
  have hwithin : ¬ (offset < 0 ∨ (t.length : Int) < offset) := by
    rw [← lineColumn?_eq_none_iff, hp]
    simp
  obtain ⟨n, rfl⟩ := Int.eq_ofNat_of_zero_le (a := offset) (by omega)
  have hn : n ≤ t.length := by omega
  rw [lineColumn?_eq_position hn] at hp
  exact ⟨n, rfl, hn, (Option.some.inj hp).symm⟩

/-- Positions stand in the order of their offsets: in the same row the column decides, else the row.
-/
theorem before_of_lt {n m : Nat} (hlt : n < m) (hm : m ≤ t.length) :
    LineColumn.Before ⟨t.row n, t.column n + 1⟩ ⟨t.row m, t.column m + 1⟩ := by
  rcases Text.position_lt hlt hm with hrow | ⟨hrow, hcolumn⟩
  · exact Or.inl hrow
  · exact Or.inr ⟨hrow, Nat.succ_lt_succ hcolumn⟩

/-- The order of offsets is the order of their positions. -/
theorem lt_iff_before {offset offset' : Int} {p p' : LineColumn}
    (hp : (ofText t).lineColumn? offset = some p)
    (hp' : (ofText t).lineColumn? offset' = some p') : offset < offset' ↔ p.Before p' := by
  obtain ⟨n, rfl, hn, rfl⟩ := exists_of_lineColumn? hp
  obtain ⟨m, rfl, hm, rfl⟩ := exists_of_lineColumn? hp'
  rcases Nat.lt_trichotomy n m with hlt | rfl | hlt
  · exact iff_of_true (by omega) (before_of_lt hlt hm)
  · refine iff_of_false (by omega) ?_
    rw [LineColumn.Before]
    omega
  · have hbefore := before_of_lt hlt hn
    refine iff_of_false (by omega) ?_
    rw [LineColumn.Before] at hbefore ⊢
    omega

/-- **Offsets and positions.** An offset has a position if and only if it lies in the text. Its line
is the one that halving the starts finds, one more than the line feeds before the offset, its column
one more than the characters between the last of them and the offset, and both lead back to the
offset. Each place in each line leads to an offset with that position. One offset is before another
one if and only if its position is. -/
theorem lineColumn?_orderIso (t : Text) :
    (∀ offset : Int,
        (ofText t).lineColumn? offset = none ↔ offset < 0 ∨ (t.length : Int) < offset)
      ∧ (∀ offset ≤ t.length, ∃ p, (ofText t).lineColumn? (offset : Nat) = some p
        ∧ p.line = search (ofText t).starts offset 0 (ofText t).lineCount
        ∧ p.line = 1 + (t.take offset).count '\n'
        ∧ p.column = 1 + ((t.take offset).reverse.takeWhile (· != '\n')).length
        ∧ (ofText t).offsetOf p.line (p.column - 1) = .ok offset)
      ∧ (Text.split '\n' t).length = (ofText t).lineCount
      ∧ (∀ l line, (Text.split '\n' t)[l]? = some line → ∀ k ≤ line.length,
        ∃ offset, (ofText t).offsetOf (l + 1 : Nat) (k : Nat) = .ok offset
          ∧ (ofText t).lineColumn? offset = some ⟨l + 1, k + 1⟩)
      ∧ ∀ offset offset' p p', (ofText t).lineColumn? offset = some p →
        (ofText t).lineColumn? offset' = some p' → (offset < offset' ↔ p.Before p') := by
  refine ⟨lineColumn?_eq_none_iff t, fun offset h => ?_, ?_, fun l line hline k hk => ?_,
    fun offset offset' p p' => lt_iff_before⟩
  · refine ⟨_, lineColumn?_eq_position h, (search_starts h).symm, rfl, Nat.add_comm _ _, ?_⟩
    have hcolumn : ((t.column offset + 1 : Nat) : Int) - 1 = (t.column offset : Nat) := by omega
    rw [hcolumn]
    exact offsetOf_position h
  · rw [Text.length_split, lineCount, ofText, List.length_cons, length_startsFrom, Nat.add_comm]
  · obtain ⟨offset, h, hrow, hcolumn⟩ := Text.exists_position hline hk
    refine ⟨offset, ?_, ?_⟩
    · rw [← hrow, ← hcolumn]
      exact offsetOf_position h
    · rw [lineColumn?_eq_position h, hrow, hcolumn]

/-- The empty line between two others, and the line feed that ends the first of them. -/
theorem lineColumn?_orderIso_blankLine :
    3 ≤ "ab\n\ncd".toList.length
      ∧ (∃ p, (ofText "ab\n\ncd".toList).lineColumn? (3 : Nat) = some p ∧ p.line = 1 + 1
        ∧ (ofText "ab\n\ncd".toList).offsetOf p.line (p.column - 1) = .ok (3 : Nat))
      ∧ (Text.split '\n' "ab\n\ncd".toList)[1]? = some []
      ∧ (∃ offset, (ofText "ab\n\ncd".toList).offsetOf (1 + 1 : Nat) (0 : Nat) = .ok offset
        ∧ (ofText "ab\n\ncd".toList).lineColumn? offset = some ⟨1 + 1, 0 + 1⟩)
      ∧ (ofText "ab\n\ncd".toList).lineColumn? 2 = some ⟨1, 3⟩
      ∧ (ofText "ab\n\ncd".toList).lineColumn? 3 = some ⟨2, 1⟩
      ∧ ((2 : Int) < 3 ↔ LineColumn.Before ⟨1, 3⟩ ⟨2, 1⟩) := by
  obtain ⟨-, hposition, -, hback, horder⟩ := lineColumn?_orderIso "ab\n\ncd".toList
  obtain ⟨p, hp, -, hline, -, hoffset⟩ := hposition 3 (by decide)
  have hfeed : (ofText "ab\n\ncd".toList).lineColumn? 2 = some ⟨1, 3⟩ := by decide
  have hblank : (ofText "ab\n\ncd".toList).lineColumn? 3 = some ⟨2, 1⟩ := by decide
  exact ⟨by decide, ⟨p, hp, hline, hoffset⟩, by decide, hback 1 [] (by decide) 0 (by decide), hfeed,
    hblank, horder 2 3 _ _ hfeed hblank⟩

end LineIndex

end Orthography
