/-
What stands right behind a link.

A link takes all it can get, and so the character behind it is no word character: a label or a tail
would have gone on over it, and no domain stands before it (`clear_linkLength?`). Main statement,
`isChain_linkMarks`: wherever a character that belongs to a link stands before one that belongs to
none, the second is no word character. So, with the links taken out, no word begins in its middle
where one of them was (`clear_unmarked`).
-/
import Mathlib.Data.List.Chain
import Mathlib.Data.List.DropRight
import Orthography.Proofs.Prose.Links
import Orthography.Proofs.Unicode.Lower

set_option autoImplicit false

namespace Orthography.Prose

open Unicode

/-- The text begins with no word character. -/
def Clear (t : Text) : Prop := ∀ c ∈ t.head?, isWord c = false

/-! ## Characters behind a run -/

theorem isWord_of_stopsLink {c : Char} (h : stopsLink c = true) : isWord c = false := by
  by_cases hascii : c.toNat < 128
  · have hcase := of_toNat_lt (P := fun c => stopsLink c = true → isWord c = false)
      (by decide) hascii
    exact hcase h
  · rw [stopsLink, Bool.or_eq_true] at h
    rcases h with hblank | hquote
    · by_contra hword
      rw [Bool.not_eq_false] at hword
      rw [isBlank_of_isWord (by omega) hword] at hblank
      cases hblank
    · have hall : "<>\"'`".toList.all (·.toNat < 128) = true := by decide
      have hlow := List.all_eq_true.mp hall c (List.contains_iff_mem.mp hquote)
      exact absurd (of_decide_eq_true hlow) hascii

/-- What holds of closing punctuation is checked mark by mark. -/
theorem of_closesSentence {P : Char → Bool} (hall : ".,;:!?)]".toList.all P = true) {c : Char}
    (h : closesSentence c = true) : P c = true :=
  List.all_eq_true.mp hall c (List.contains_iff_mem.mp h)

theorem isWord_of_closesSentence {c : Char} (h : closesSentence c = true) : isWord c = false := by
  simpa using of_closesSentence (P := (!isWord ·)) (by decide) h

/-! ## The parts of a link -/

/-- A tail ends before a stop, before closing punctuation or with the text. None of these is a word
character, so no word is cut in two by the end of a tail. -/
theorem clear_drop_tailLength (t : Text) : Clear (t.drop (tailLength t)) := by
  have hrun := List.rdropWhile_append_rtakeWhile (p := closesSentence)
    (l := t.takeWhile (!stopsLink ·))
  have hsplit := List.takeWhile_append_dropWhile (p := (!stopsLink ·)) (l := t)
  rw [← hrun, List.append_assoc] at hsplit
  have hlength : tailLength t = ((t.takeWhile (!stopsLink ·)).rdropWhile closesSentence).length :=
    List.length_reverse.symm
  have hrest : t.drop (tailLength t) = (t.takeWhile (!stopsLink ·)).rtakeWhile closesSentence
      ++ t.dropWhile (!stopsLink ·) := by
    calc t.drop (tailLength t)
        = ((t.takeWhile (!stopsLink ·)).rdropWhile closesSentence
            ++ ((t.takeWhile (!stopsLink ·)).rtakeWhile closesSentence
              ++ t.dropWhile (!stopsLink ·))).drop (tailLength t) := by rw [hsplit]
      _ = _ := by rw [hlength, List.drop_left]
  intro c hc
  rw [hrest] at hc
  -- what follows the tail is closing punctuation if there is any, else a stop or nothing
  cases hclosing : (t.takeWhile (!stopsLink ·)).rtakeWhile closesSentence with
  | nil =>
    rw [hclosing, List.nil_append] at hc
    have hnot := List.head?_dropWhile_not (!stopsLink ·) t
    rw [hc] at hnot
    exact isWord_of_stopsLink (by simpa using hnot)
  | cons d more =>
    have hd : d ∈ (t.takeWhile (!stopsLink ·)).rtakeWhile closesSentence := by
      rw [hclosing]
      exact List.mem_cons_self
    rw [hclosing] at hc
    cases hc
    exact isWord_of_closesSentence (List.mem_rtakeWhile_imp hd)

/-- Labels end where no host goes on. -/
theorem head?_drop_mailLabelsLength {t : Text} (h : ∀ c ∈ t.head?, isMailHostChar c = false) :
    ∀ c ∈ (t.drop (mailLabelsLength t)).head?, isMailHostChar c = false := by
  fun_induction mailLabelsLength t with
  | case1 => exact h
  | case2 rest label hlabel ih =>
    have hbehind := ih (Text.head?_drop_takeWhile rest)
    rw [List.drop_drop] at hbehind
    rwa [Nat.add_assoc, Nat.add_comm, List.drop_succ_cons]
  | case3 => exact h

/-- A link with a tail ends before no word character: the tail goes on to what stops it, and gives
back only what closes a sentence. -/
theorem clear_withTail? {opening : Option Nat} {t : Text} {n : Nat}
    (hn : n ∈ withTail? opening t) : Clear (t.drop n) := by
  obtain ⟨k, -, -, rfl⟩ := mem_withTail? hn
  rw [← List.drop_drop]
  exact clear_drop_tailLength _

theorem clear_addressLength? {t : Text} {n : Nat} (hn : n ∈ addressLength? t) :
    Clear (t.drop n) := by
  obtain ⟨rest, hrest, -, rfl⟩ := mem_addressLength? hn
  have hbehind := head?_drop_mailLabelsLength (Text.head?_drop_takeWhile (p := isMailHostChar) rest)
  have hdrop : t.drop ((t.takeWhile isMailboxChar).length + 1) = rest := by
    rw [← List.drop_drop, hrest]
    rfl
  rw [← List.drop_drop, ← List.drop_drop, hdrop]
  intro c hc
  have hhost := hbehind c hc
  rw [isMailHostChar, Bool.or_eq_false_iff] at hhost
  exact hhost.1

theorem clear_topLevelLength? {t : Text} {n : Nat} (hn : n ∈ topLevelLength? t) :
    Clear (t.drop n) := by
  simp only [topLevelLength?, Option.mem_def, Option.bind_eq_bind, Option.bind_eq_some_iff,
    Option.some.injEq] at hn
  obtain ⟨domain, hfind, rfl⟩ := hn
  have hlast : domain.getLast?.any isWord = true := by
    have hall : topLevelDomains.all (·.getLast?.any isWord) = true := by decide
    exact List.all_eq_true.mp hall domain (List.mem_of_find?_eq_some hfind)
  have hfound := List.find?_some hfind
  have hboundary := ((Bool.and_eq_true _ _).mp hfound).2
  rw [atBoundary, hlast] at hboundary
  intro c hc
  rw [hc] at hboundary
  simpa using hboundary

theorem clear_drop_pathLength {t : Text} (h : Clear t) : Clear (t.drop (pathLength t)) := by
  unfold pathLength
  split
  · next rest =>
    split
    · exact h
    · rw [Nat.add_comm, List.drop_succ_cons]
      exact clear_drop_tailLength rest
  · exact h

/-- So a bare host ends before no word character either, whether a path follows it or not. -/
theorem clear_hostLength? {before : Option Char} {t : Text} {n : Nat}
    (hn : n ∈ hostLength? before t) : Clear (t.drop n) := by
  obtain ⟨k, -, domain, hdomain, rfl⟩ := mem_hostLength? hn
  have hclear := clear_topLevelLength? hdomain
  rw [List.drop_drop] at hclear
  rw [← List.drop_drop]
  exact clear_drop_pathLength hclear

/-- **No word goes on behind a link.** -/
theorem clear_linkLength? {before : Option Char} {t : Text} {n : Nat}
    (hn : n ∈ linkLength? before t) : Clear (t.drop n) := by
  rcases linkLength?_kind hn with ⟨opening, -, hn⟩ | hn | hn
  · exact clear_withTail? hn
  · exact clear_addressLength? hn
  · exact clear_hostLength? hn

/-! ## The text without its links -/

/-- Two neighbours of which the first belongs to a link and the second to none. -/
def Parted (p q : Char × Bool) : Prop := p.2 = true → q.2 = false → isWord q.1 = false

theorem parted_head {c : Char} {before : Option Char} {linked : Nat} {t : Text}
    (h : Clear (t.drop linked)) :
    ∀ q ∈ (t.zip (linkMarksFrom before linked t)).head?, Parted (c, true) q := by
  intro q hq _ hkept
  cases t with
  | nil => cases hq
  | cons d rest =>
    cases linked with
    | succ linked =>
      rw [linkMarksFrom_succ, List.zip_cons_cons] at hq
      cases hq
      cases hkept
    | zero =>
      rcases linkLength?_cases before (d :: rest) with hnone | ⟨n, hlink⟩
      · rw [linkMarksFrom_of_none hnone, List.zip_cons_cons] at hq
        cases hq
        exact h d rfl
      · rw [linkMarksFrom_of_link hlink, List.zip_cons_cons] at hq
        cases hq
        cases hkept

/-- **Marks.** No word goes on behind what is marked. It is said of neighbouring characters, so that
it can be used at any place of a text. -/
theorem isChain_linkMarksFrom (before : Option Char) (linked : Nat) (t : Text)
    (h : 0 < linked → Clear (t.drop linked)) :
    (t.zip (linkMarksFrom before linked t)).IsChain Parted := by
  induction t generalizing before linked with
  | nil => exact List.isChain_nil
  | cons c rest ih =>
    cases linked with
    | succ linked =>
      have hclear : Clear (rest.drop linked) := h (Nat.succ_pos linked)
      rw [linkMarksFrom_succ, List.zip_cons_cons, List.isChain_cons]
      exact ⟨parted_head hclear, ih _ _ fun _ => hclear⟩
    | zero =>
      rcases linkLength?_cases before (c :: rest) with hnone | ⟨n, hlink⟩
      · rw [linkMarksFrom_of_none hnone, List.zip_cons_cons, List.isChain_cons]
        exact ⟨fun _ _ hmarked => absurd hmarked Bool.false_ne_true, ih _ _ (by simp)⟩
      · have hclear := clear_linkLength? hlink
        rw [List.drop_succ_cons] at hclear
        rw [linkMarksFrom_of_link hlink, List.zip_cons_cons, List.isChain_cons]
        exact ⟨parted_head hclear, ih _ _ fun _ => hclear⟩

theorem isChain_linkMarks (t : Text) : (t.zip (linkMarks t)).IsChain Parted :=
  isChain_linkMarksFrom none 0 t fun h => absurd h (Nat.lt_irrefl 0)

/-- What is left behind a link begins with no word character. -/
theorem clear_unmarked {c : Char} {t : Text} {marks : List Bool}
    (h : ((c, true) :: t.zip marks).IsChain Parted) : Clear (unmarked t marks) := by
  induction t generalizing c marks with
  | nil => simp [Clear, unmarked]
  | cons d rest ih =>
    cases marks with
    | nil => simp [Clear, unmarked]
    | cons marked marks =>
      rw [List.zip_cons_cons, List.isChain_cons_cons] at h
      cases marked with
      | true => exact ih h.2
      | false =>
        rw [unmarked_cons_false]
        intro e he
        cases he
        exact h.1 rfl rfl

end Orthography.Prose
