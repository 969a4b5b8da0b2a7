/-
Links are local, and punctuation behind them stays.

Two kinds of text change nothing about the links before them: one that begins with a character that
stops links, whatever follows (`unseen_stop`), and a single closing punctuation mark at the end
(`unseen_closing`). The first is so because no part of a link goes on over a stop. The second needs
a closer look at each part, for a full stop may go on with a scheme, a mailbox, a label or an
opening, and a colon with an opening; but then nothing is left of the text for what has to follow.
Behind a stop a link begins as it does at the beginning of a text, since a stop is no word
character. Main statement, `stripLinks_local`, which also says that the links are what the search
for `Pattern.link` finds.
-/
import Orthography.Proofs.Prose.LinkEnds
import Orthography.Proofs.Prose.Pattern

set_option autoImplicit false

namespace Orthography.Prose

open Unicode

/-! ## Texts that links do not see -/

/-- The links before the text are as they are at the end of a text. -/
def Unseen (v : Text) : Prop := ∀ before r, linkLength? before (r ++ v) = linkLength? before r

theorem linkLength?_nil (before : Option Char) : linkLength? before [] = none := by
  rcases linkLength?_cases before [] with hnone | ⟨n, hlink⟩
  · exact hnone
  · have hle := linkLength?_le _ hlink
    simp at hle

/-- Links are removed on their own from what stands before such a text. What is to be shown of it is
only that no link before it looks at it. -/
theorem Unseen.stripLinksFrom_append {v : Text} (hv : Unseen v) (before : Option Char)
    {linked : Nat} {a : Text} (h : linked ≤ a.length) :
    stripLinksFrom before linked (a ++ v)
      = stripLinksFrom before linked a ++ stripLinksFrom (a.getLast?.or before) 0 v := by
  induction a generalizing before linked with
  | nil =>
    obtain rfl := Nat.le_zero.mp h
    rfl
  | cons c a ih =>
    have hlast : (c :: a).getLast?.or before = a.getLast?.or (some c) := by
      rw [List.getLast?_cons]
      cases a.getLast? <;> rfl
    rw [hlast, List.cons_append]
    cases linked with
    | succ linked => exact ih _ (Nat.le_of_succ_le_succ h)
    | zero =>
      -- a link that begins here is the one of the text alone, so it ends in the text
      have hlink : linkLength? before (c :: (a ++ v)) = linkLength? before (c :: a) :=
        hv before (c :: a)
      rcases linkLength?_cases before (c :: a) with hnone | ⟨n, hsome⟩
      · rw [stripLinksFrom_of_none hnone, stripLinksFrom_of_none (hlink.trans hnone),
          ih _ (Nat.zero_le _), List.cons_append]
      · rw [stripLinksFrom_of_link hsome, stripLinksFrom_of_link (hlink.trans hsome),
          ih _ (Nat.le_of_succ_le_succ (linkLength?_le _ hsome))]

/-! ## Stops -/

theorem toNat_lt_of_isAlphanum {c : Char} (h : c.isAlphanum = true) : c.toNat < 128 := by
  have hbound : c.val ≤ 'Z'.val ∨ c.val ≤ 'z'.val ∨ c.val ≤ '9'.val := by
    rcases (Bool.or_eq_true c.isAlpha c.isDigit).mp h with halpha | hdigit
    · rcases (Bool.or_eq_true c.isUpper c.isLower).mp halpha with hupper | hlower
      · exact Or.inl (of_decide_eq_true hupper).2
      · exact Or.inr (Or.inl (of_decide_eq_true (Bool.and_eq_true_iff.mp hlower).2))
    · exact Or.inr (Or.inr (of_decide_eq_true (Bool.and_eq_true_iff.mp hdigit).2))
  rcases hbound with h | h | h
  all_goals exact Nat.lt_of_le_of_lt h (by decide)

theorem parts_of_stopsLink {s : Char} (hs : stopsLink s = true) : parts s = true := by
  by_cases hascii : s.toNat < 128
  · have hcase := of_toNat_lt (P := fun s => stopsLink s = true → parts s = true)
      (by decide) hascii
    exact hcase hs
  · have hword := isWord_of_stopsLink hs
    have hletter : s.isAlphanum = false := by
      by_contra h
      exact hascii (toNat_lt_of_isAlphanum (by simpa using h))
    have hclosing : closesSentence s = false := by
      by_contra h
      have hlow := of_closesSentence (P := fun c => decide (c.toNat < 128)) (by decide)
        (by simpa using h)
      exact hascii (of_decide_eq_true hlow)
    have hne : ∀ c ∈ "+-.:/@".toList, s ≠ c := by
      rintro c hc rfl
      have hall : "+-.:/@".toList.all (·.toNat < 128) = true := by decide
      exact hascii (of_decide_eq_true (List.all_eq_true.mp hall s hc))
    simp only [String.reduceToList, List.forall_mem_cons, ne_eq] at hne
    simp [parts, isSchemeChar, isMailboxChar, isMailHostChar, isHostChar, hword, hletter, hclosing,
      hne]

section Stops

variable {s : Char} (hs : stopsLink s = true)

include hs

theorem unseen_stop (z : Text) : Unseen (s :: z) := by
  intro before r
  rcases linkLength?_append (parts_of_stopsLink hs) r z before with hsame | ⟨hgoes, -⟩
  · exact hsame
  · rw [hs] at hgoes
    cases hgoes

/-- Behind a stop links begin as they do where a text begins. -/
theorem linkLength?_behind_stop (t : Text) : linkLength? (some s) t = linkLength? none t := by
  have hword := isWord_of_stopsLink hs
  have hboundary : atBoundary (some s) t.head? = atBoundary none t.head? := by
    simp [atBoundary, hword]
  simp only [linkLength?, hostLength?, hboundary]

/-- Behind such a character the search is where it is at the beginning of a text. -/
theorem stripLinksFrom_behind_stop (t : Text) :
    stripLinksFrom (some s) 0 t = stripLinksFrom none 0 t := by
  cases t with
  | nil => rfl
  | cons c t => rw [stripLinksFrom, stripLinksFrom, linkLength?_behind_stop hs]

theorem stripLinks_append_stop (a b : Text) :
    stripLinks (a ++ s :: b) = stripLinks a ++ s :: stripLinks b := by
  have hnone := linkLength?_cons_of_parts (parts_of_stopsLink hs) b (a.getLast?.or none)
  rw [stripLinks, (unseen_stop hs b).stripLinksFrom_append none (Nat.zero_le _),
    stripLinksFrom_of_none hnone, stripLinksFrom_behind_stop hs]
  rfl

end Stops

/-! ## Closing punctuation -/

/-- Where a bare host ends, if its last label ends after `n` characters and a domain follows. -/
def hostEnd? (t : Text) (n : Nat) : Option Nat := do
  let domain ← topLevelLength? (t.drop n)
  some (n + domain + pathLength (t.drop (n + domain)))

/-- A bare host begins at a boundary, and it is the longest run of labels that ends in a top-level
domain. -/
theorem hostLength?_eq (before : Option Char) (t : Text) :
    hostLength? before t
      = if atBoundary before t.head? then (hostLengths t).findSome? (hostEnd? t) else none := rfl

section Closing

variable {p : Char} (hp : closesSentence p = true)

include hp

/-- A mark that closes a sentence at the end of a text is no part of a tail, which gives such marks
back. -/
theorem tailLength_concat (r : Text) : tailLength (r ++ [p]) = tailLength r := by
  have hstop : stopsLink p = false := by
    simpa using of_closesSentence (P := (!stopsLink ·)) (by decide) hp
  have hrun : [p].takeWhile (!stopsLink ·) = [p] := by simp [hstop]
  unfold tailLength
  rw [List.takeWhile_append]
  split
  · next hall =>
    have hself : r.takeWhile (!stopsLink ·) = r := (List.takeWhile_prefix _).eq_of_length hall
    rw [hrun, List.reverse_append, List.reverse_singleton, List.singleton_append,
      List.dropWhile_cons_of_pos hp, hself]
  · rfl

/-- A fixed text that does not end in the mark. -/
theorem isPrefixOf_concat {w : Text} (hw : w.getLast?.any closesSentence = false) (r : Text) :
    w.isPrefixOf (r ++ [p]) = w.isPrefixOf r := by
  rw [Bool.eq_iff_iff, List.isPrefixOf_iff_prefix, List.isPrefixOf_iff_prefix,
    List.prefix_concat_iff]
  refine or_iff_right ?_
  rintro rfl
  rw [List.getLast?_concat, Option.any_some, hp] at hw
  cases hw

theorem schemeLength?_concat (r : Text) : schemeLength? (r ++ [p]) = schemeLength? r := by
  have hletter : p.isAlpha = false := by
    simpa using of_closesSentence (P := (!Char.isAlpha ·)) (by decide) hp
  have hfixed := isPrefixOf_concat hp (w := "://".toList) (by decide)
  cases r with
  | nil => simp [schemeLength?, hletter]
  | cons c r =>
    rw [List.cons_append, schemeLength?, schemeLength?, ← List.cons_append]
    rcases Text.takeWhile_concat (p := isSchemeChar) (c :: r) p with hsame | ⟨hown, hlonger⟩
    · rw [hsame, Text.drop_append_cons (Text.length_takeWhile_le _ _), hfixed]
    · -- behind the letters nothing is left
      have hshort : "://".toList.isPrefixOf [] = false := rfl
      rw [hown, hlonger, hshort, Bool.and_false]
      rfl

theorem withTail?_concat {opening : Option Nat} {r : Text} (h : ∀ k ∈ opening, k ≤ r.length) :
    withTail? opening (r ++ [p]) = withTail? opening r := by
  cases opening with
  | none => rfl
  | some k =>
    simp only [withTail?, Option.bind_eq_bind, Option.bind_some]
    rw [List.drop_append_of_le_length (h k rfl), tailLength_concat hp]

/-- An opening that the mark completes has no tail. -/
theorem withTail?_opening_concat (w r : Text) :
    withTail? (openingLength? w (r ++ [p])) (r ++ [p]) = withTail? (openingLength? w r) r := by
  by_cases hw : w = r ++ [p]
  · have hnone : openingLength? w r = none := by
      rw [openingLength?, if_neg]
      rw [List.isPrefixOf_iff_prefix]
      intro hstands
      have hle := hstands.length_le
      rw [hw, List.length_append, List.length_singleton] at hle
      omega
    have hzero : tailLength [] = 0 := rfl
    rw [hnone, openingLength?, if_pos (by simp [hw]), hw]
    simp only [withTail?, Option.bind_eq_bind, Option.bind_some, List.drop_length, hzero, if_true]
    rfl
  · have hsame : openingLength? w (r ++ [p]) = openingLength? w r := by
      simp only [openingLength?, List.isPrefixOf_iff_prefix, List.prefix_concat_iff, hw, false_or]
    rw [hsame, withTail?_concat hp openingLength?_le]

theorem isMailHostChar_of_closing : isMailHostChar p = false := by
  simpa using of_closesSentence (P := (!isMailHostChar ·)) (by decide) hp

theorem isHostChar_of_closing : isHostChar p = false := by
  simpa using of_closesSentence (P := (!isHostChar ·)) (by decide) hp

theorem addressLength?_concat (r : Text) : addressLength? (r ++ [p]) = addressLength? r := by
  have hhost := isMailHostChar_of_closing hp
  have hat : p ≠ '@' := by
    rintro rfl
    exact absurd hp (by decide)
  -- closing punctuation is no label, not even as the dot before one
  have hzero : mailLabelsLength [p] = 0 := by
    unfold mailLabelsLength
    split
    · next rest heq =>
      obtain ⟨-, rfl⟩ := List.cons.inj heq
      rfl
    · rfl
  unfold addressLength?
  dsimp only
  rcases Text.takeWhile_concat (p := isMailboxChar) r p with hsame | ⟨hown, hlonger⟩
  · rw [hsame, Text.drop_append_cons (Text.length_takeWhile_le _ _)]
    cases r.drop (r.takeWhile isMailboxChar).length with
    | nil => simp [hat]
    | cons c rest =>
      by_cases hc : c = '@'
      · subst hc
        simp only [List.cons_append, Text.takeWhile_append_cons hhost]
        rw [Text.drop_append_cons (Text.length_takeWhile_le _ _),
          mailLabelsLength_append _ hhost hzero]
      · simp [hc]
  · rw [hown, hlonger]

/-- A dot at the end may be counted to a host as one more end of it. It is an end that no top-level
domain follows, so it makes no link. -/
theorem hostLengths_concat_label {r : Text} (hne : r ≠ []) (hall : r.takeWhile isHostChar = r) :
    hostLengths (r ++ [p]) = hostLengths r
      ∨ hostLengths (r ++ [p]) = (r.length + 1) :: hostLengths r := by
  have hlabel : ¬ r.isEmpty = true := by simpa using hne
  have hnone : hostLengths r = [] := by
    rw [hostLengths_eq, hall, if_neg hlabel, List.drop_length]
  rw [hnone, hostLengths_eq, Text.takeWhile_append_cons (isHostChar_of_closing hp), hall,
    if_neg hlabel, List.drop_left]
  by_cases hdot : p = '.'
  · have hnil : hostLengths [] = [] := by simp [hostLengths_eq]
    subst hdot
    right
    show (hostLengths []).map (r.length + 1 + ·) ++ [r.length + 1] = [r.length + 1]
    rw [hnil]
    rfl
  · left
    simp [hdot]

/-- A full stop behind a last label is one more place where a domain could begin, the last one. The
induction goes label by label, as the search for hosts does. -/
theorem hostLengths_concat (r : Text) :
    hostLengths (r ++ [p]) = hostLengths r
      ∨ hostLengths (r ++ [p]) = (r.length + 1) :: hostLengths r := by
  have hhost := isHostChar_of_closing hp
  fun_induction hostLengths r with
  | case1 t label hempty =>
    left
    rw [hostLengths_eq, Text.takeWhile_append_cons hhost]
    exact if_pos hempty
  | case2 t label hlabel rest hrest ih =>
    -- the dot stands behind a later label, and the first label is read as before
    have hlength := congrArg List.length hrest
    rw [List.length_drop, List.length_cons] at hlength
    rw [hostLengths_eq, Text.takeWhile_append_cons hhost,
      Text.drop_append_cons (Text.length_takeWhile_le _ _), if_neg hlabel, hrest, List.cons_append]
    show (hostLengths (rest ++ [p])).map (label.length + 1 + ·) ++ [label.length + 1] = _
      ∨ (hostLengths (rest ++ [p])).map (label.length + 1 + ·) ++ [label.length + 1] = _
    rcases ih with hsame | hmore
    · left
      rw [hsame]
    · right
      have hend : label.length + 1 + (rest.length + 1) = t.length + 1 := by omega
      rw [hmore, List.map_cons, List.cons_append, hend]
  | case3 t label hlabel hshape =>
    -- no dot follows the first label, so it is the last one and the new dot may be its own
    have hnone : hostLengths t = [] := by
      rw [hostLengths_eq, if_neg hlabel]
      split
      · next rest heq => exact (hshape rest heq).elim
      · rfl
    rw [← hnone]
    cases hbehind : t.drop label.length with
    | nil =>
      have hall : label = t :=
        (List.takeWhile_prefix _).eq_of_length_le (List.drop_eq_nil_iff.mp hbehind)
      refine hostLengths_concat_label hp ?_ hall
      rintro rfl
      exact hlabel rfl
    -- what follows the label is no dot, and it stays the next character
    | cons c rest =>
      have hdot : c ≠ '.' := by
        rintro rfl
        exact hshape rest hbehind
      left
      rw [hnone, hostLengths_eq, Text.takeWhile_append_cons hhost,
        Text.drop_append_cons (Text.length_takeWhile_le _ _), if_neg hlabel, hbehind]
      simp [hdot]

theorem topLevelLength?_concat (r : Text) : topLevelLength? (r ++ [p]) = topLevelLength? r := by
  have hdomains : ∀ w ∈ topLevelDomains, w.getLast?.any closesSentence = false := by decide
  exact topLevelLength?_append r (isWord_of_closesSentence hp) fun domain hmem =>
    isPrefixOf_concat hp (hdomains domain hmem) r

theorem pathLength_concat (r : Text) : pathLength (r ++ [p]) = pathLength r := by
  have hslash : p ≠ '/' := by
    rintro rfl
    exact absurd hp (by decide)
  cases r with
  | nil => simp [pathLength, hslash]
  | cons c rest =>
    by_cases hc : c = '/'
    · subst hc
      simp only [List.cons_append, pathLength, tailLength_concat hp]
    · simp [pathLength, hc]

theorem hostEnd?_concat {r : Text} {n : Nat} (hn : n ≤ r.length) :
    hostEnd? (r ++ [p]) n = hostEnd? r n := by
  unfold hostEnd?
  rw [Text.drop_append_cons hn, topLevelLength?_concat hp]
  match hdomain : topLevelLength? (r.drop n) with
  | none => rfl
  | some domain =>
    have hbound := topLevelLength?_le domain hdomain
    rw [List.length_drop] at hbound
    simp only [Option.bind_eq_bind, Option.bind_some]
    rw [Text.drop_append_cons (by omega), pathLength_concat hp]

/-- So a bare host is found with the mark as without it, although there may be one more end to try.
-/
theorem hostLength?_concat (before : Option Char) (r : Text) :
    hostLength? before (r ++ [p]) = hostLength? before r := by
  have hboundary : atBoundary before (r ++ [p]).head? = atBoundary before r.head? := by
    cases r with
    | nil => simp [atBoundary, isWord_of_closesSentence hp]
    | cons c r => rfl
  have hsame : (hostLengths r).findSome? (hostEnd? (r ++ [p]))
      = (hostLengths r).findSome? (hostEnd? r) := by
    have hends : (hostLengths r).map (hostEnd? (r ++ [p])) = (hostLengths r).map (hostEnd? r) :=
      List.map_congr_left fun n hn => hostEnd?_concat hp (hostLengths_le n hn)
    simpa [List.findSome?_map] using congrArg (List.findSome? id) hends
  rw [hostLength?_eq, hostLength?_eq, hboundary]
  rcases hostLengths_concat hp r with hlengths | hlengths
  · rw [hlengths, hsame]
  · -- no domain stands behind the mark
    have hend : hostEnd? (r ++ [p]) (r.length + 1) = none := by
      have hnil : (r ++ [p]).drop (r.length + 1) = [] := by simp
      have hnone : topLevelLength? [] = none := by decide
      rw [hostEnd?, hnil, hnone]
      rfl
    rw [hlengths, List.findSome?_cons, hend, hsame]

/-- Closing punctuation at the end of a text makes no difference to the links before it. -/
theorem unseen_closing : Unseen [p] := by
  intro before r
  unfold linkLength?
  rw [schemeLength?_concat hp, withTail?_concat hp schemeLength?_le, withTail?_opening_concat hp,
    withTail?_opening_concat hp, addressLength?_concat hp, hostLength?_concat hp]

/-- A mark that closes a sentence is kept at the end of the text, whatever link stands before it. -/
theorem stripLinks_concat_closing (a : Text) : stripLinks (a ++ [p]) = stripLinks a ++ [p] := by
  have hunseen := unseen_closing hp
  have hnone : linkLength? (a.getLast?.or none) [p] = none :=
    (hunseen _ []).trans (linkLength?_nil _)
  rw [stripLinks, hunseen.stripLinksFrom_append none (Nat.zero_le _),
    stripLinksFrom_of_none hnone]
  rfl

end Closing

/-- **Links are local.** The text without its links is the text without what the search for their
pattern finds. A character that stops links parts the search: the texts on its two sides lose their
links each on its own. And closing punctuation at the end of a text stays there and takes nothing
from a link before it. -/
theorem stripLinks_local :
    (∀ t : Text, stripLinks t = Pattern.link.erase none t)
      ∧ (∀ (a b : Text) (s : Char), stopsLink s = true →
        stripLinks (a ++ s :: b) = stripLinks a ++ s :: stripLinks b)
      ∧ ∀ (a : Text) (p : Char), closesSentence p = true →
        stripLinks (a ++ [p]) = stripLinks a ++ [p] :=
  ⟨Pattern.stripLinks_eq_erase, fun a b _ hs => stripLinks_append_stop hs a b,
    fun a _ hp => stripLinks_concat_closing hp a⟩

/-- A quote between an open path and an address, and a full stop that could begin another label. -/
theorem stripLinks_local_quote :
    stopsLink '"' = true
      ∧ stripLinks ("see http://x.org/".toList ++ '"' :: "me@x.org".toList)
        = stripLinks "see http://x.org/".toList ++ '"' :: stripLinks "me@x.org".toList
      ∧ closesSentence '.' = true
      ∧ stripLinks ("at docs.x.org".toList ++ ['.']) = stripLinks "at docs.x.org".toList ++ ['.'] :=
  ⟨by decide, stripLinks_local.2.1 _ _ '"' (by decide), by decide,
    stripLinks_local.2.2 _ '.' (by decide)⟩

end Orthography.Prose
