/-
How far a link sees.

Whether a link begins at a place, and where it ends, is read off the text up to the first
character that no part of a link holds. Main statements: `linkLength?_append`, a character of that
kind leaves every link before it as it would be at the end of the text, unless a tail runs over it,
and no tail runs over a character that stops links; `stripLinks_eq_unmarked`, the text without its
links is the text at the places that `linkMarks` leaves unmarked.
-/
import Mathlib.Data.List.Find
import Orthography.Proofs.Text.Runs
import Orthography.Prose.Links

set_option autoImplicit false

namespace Orthography.Prose

open Unicode

/-! ## Marks -/

/-- For each character whether it belongs to a link, where `before` is the character before the
text and the first `linked` characters still belong to a link. -/
def linkMarksFrom (before : Option Char) (linked : Nat) : Text → List Bool
  | [] => []
  | c :: rest =>
    match linked with
    | linked + 1 => true :: linkMarksFrom (some c) linked rest
    | 0 =>
      match linkLength? before (c :: rest) with
      | some (n + 1) => true :: linkMarksFrom (some c) n rest
      | _ => false :: linkMarksFrom (some c) 0 rest

/-- For each character of a text whether it belongs to a link. -/
def linkMarks (t : Text) : List Bool := linkMarksFrom none 0 t

section Steps

variable {before : Option Char} {linked n : Nat} {c : Char} {rest : Text}

@[simp] theorem linkMarksFrom_succ :
    linkMarksFrom before (linked + 1) (c :: rest) = true :: linkMarksFrom (some c) linked rest :=
  rfl

theorem linkMarksFrom_of_link (h : linkLength? before (c :: rest) = some (n + 1)) :
    linkMarksFrom before 0 (c :: rest) = true :: linkMarksFrom (some c) n rest := by
  simp [linkMarksFrom, h]

/-- Where none begins the character is left, and the search goes on behind it. -/
theorem linkMarksFrom_of_none (h : linkLength? before (c :: rest) = none) :
    linkMarksFrom before 0 (c :: rest) = false :: linkMarksFrom (some c) 0 rest := by
  simp [linkMarksFrom, h]

theorem stripLinksFrom_of_link (h : linkLength? before (c :: rest) = some (n + 1)) :
    stripLinksFrom before 0 (c :: rest) = stripLinksFrom (some c) n rest := by
  simp [stripLinksFrom, h]

theorem stripLinksFrom_of_none (h : linkLength? before (c :: rest) = none) :
    stripLinksFrom before 0 (c :: rest) = c :: stripLinksFrom (some c) 0 rest := by
  simp [stripLinksFrom, h]

end Steps

@[simp] theorem length_linkMarksFrom (before : Option Char) (linked : Nat) (t : Text) :
    (linkMarksFrom before linked t).length = t.length := by
  induction t generalizing before linked with
  | nil => rfl
  | cons c rest ih =>
    unfold linkMarksFrom
    split
    · simp [ih]
    · split <;> simp [ih]

/-- The characters of a text that are not marked. -/
def unmarked (t : Text) (marks : List Bool) : Text := ((t.zip marks).filter (!·.2)).map (·.1)

section Unmarked

variable {c : Char} {t : Text} {marks : List Bool}

@[simp] theorem unmarked_cons_true : unmarked (c :: t) (true :: marks) = unmarked t marks := rfl

@[simp] theorem unmarked_cons_false :
    unmarked (c :: t) (false :: marks) = c :: unmarked t marks := rfl

theorem unmarked_append (h : t.length = marks.length) (t' : Text) (marks' : List Bool) :
    unmarked (t ++ t') (marks ++ marks') = unmarked t marks ++ unmarked t' marks' := by
  unfold unmarked
  rw [List.zip_append h, List.filter_append, List.map_append]

end Unmarked

/-- Taking links out is leaving out what they mark. With marks one can speak of what happens to each
character, which the text that is left no longer tells. -/
theorem stripLinksFrom_eq_unmarked (before : Option Char) (linked : Nat) (t : Text) :
    stripLinksFrom before linked t = unmarked t (linkMarksFrom before linked t) := by
  induction t generalizing before linked with
  | nil => rfl
  | cons c rest ih =>
    unfold stripLinksFrom linkMarksFrom
    cases linked with
    | succ linked => simp [ih]
    | zero =>
      match linkLength? before (c :: rest) with
      | none => simp [ih]
      | some 0 => simp [ih]
      | some (n + 1) => simp [ih]

/-- The text without its links is made of the characters that belong to none. -/
theorem stripLinks_eq_unmarked (t : Text) : stripLinks t = unmarked t (linkMarks t) :=
  stripLinksFrom_eq_unmarked none 0 t

/-- The first `linked` characters are marked. -/
theorem linkMarksFrom_getElem?_of_lt (before : Option Char) {linked i : Nat} {t : Text}
    (hlinked : i < linked) (hi : i < t.length) :
    (linkMarksFrom before linked t)[i]? = some true := by
  induction t generalizing before linked i with
  | nil => simp at hi
  | cons c rest ih =>
    obtain ⟨linked, rfl⟩ := Nat.exists_eq_add_one_of_ne_zero (by omega : linked ≠ 0)
    unfold linkMarksFrom
    cases i with
    | zero => rfl
    | succ i =>
      rw [List.getElem?_cons_succ]
      apply ih
      · omega
      · simpa using hi

/-! ## Characters that part what stands around them -/

/-- No run of a link holds the character, unless the run is a tail, and no fixed part has it. -/
def parts (s : Char) : Bool :=
  !(isSchemeChar s || isMailboxChar s || isMailHostChar s || isHostChar s || closesSentence s
    || ":/@".toList.contains s)

section Parts

variable {s : Char} (hs : parts s = true) (r z : Text)

include hs

/-- None of the classes that links are made of has a character that parts links. -/
theorem isSchemeChar_of_parts : isSchemeChar s = false := by
  simp only [parts] at hs
  grind

theorem isMailboxChar_of_parts : isMailboxChar s = false := by
  simp only [parts] at hs
  grind

theorem isMailHostChar_of_parts : isMailHostChar s = false := by
  simp only [parts] at hs
  grind

theorem isHostChar_of_parts : isHostChar s = false := by
  simp only [parts] at hs
  grind

theorem closesSentence_of_parts : closesSentence s = false := by
  simp only [parts] at hs
  grind

theorem isWord_of_parts : isWord s = false := by
  have hmailbox := isMailboxChar_of_parts hs
  simp only [isMailboxChar] at hmailbox
  grind

theorem ne_of_parts {c : Char} (hc : parts c = false) : s ≠ c := by
  rintro rfl
  simp [hs] at hc

/-- No fixed part of a link has such a character. -/
theorem not_mem_of_parts {fixed : Text} (hfixed : fixed.any parts = false) : s ∉ fixed := by
  intro hmem
  exact List.any_eq_false.mp hfixed s hmem hs

end Parts

theorem any_parts_scheme : "://".toList.any parts = false := by decide

theorem any_parts_mailto : "mailto:".toList.any parts = false := by decide

theorem any_parts_www : "www.".toList.any parts = false := by decide

theorem any_parts_topLevelDomains : topLevelDomains.any (·.any parts) = false := by decide

/-! ## The parts of a link -/

/-- The lengths of the beginnings of a host, without the proof that the search for them ends. -/
theorem hostLengths_eq (t : Text) :
    hostLengths t =
      if (t.takeWhile isHostChar).isEmpty then []
      else match t.drop (t.takeWhile isHostChar).length with
        | '.' :: rest => (hostLengths rest).map ((t.takeWhile isHostChar).length + 1 + ·)
          ++ [(t.takeWhile isHostChar).length + 1]
        | _ => [] := by
  rw [hostLengths]
  split
  · rfl
  · split <;> simp_all

/-! What the three kinds are made of. -/

/-- A link with a tail, taken apart: its opening and a tail that is not empty. -/
theorem mem_withTail? {opening : Option Nat} {t : Text} {n : Nat} (hn : n ∈ withTail? opening t) :
    ∃ k ∈ opening, 0 < tailLength (t.drop k) ∧ n = k + tailLength (t.drop k) := by
  simp only [withTail?, Option.mem_def, Option.bind_eq_bind, Option.bind_eq_some_iff] at hn
  obtain ⟨k, hk, htail⟩ := hn
  refine ⟨k, hk, ?_⟩
  grind

/-- An address, taken apart: the mailbox, the sign, the first label, and more labels. -/
theorem mem_addressLength? {t : Text} {n : Nat} (hn : n ∈ addressLength? t) :
    ∃ rest, t.drop (t.takeWhile isMailboxChar).length = '@' :: rest
      ∧ 0 < mailLabelsLength (rest.drop (rest.takeWhile isMailHostChar).length)
      ∧ n = (t.takeWhile isMailboxChar).length + 1 + (rest.takeWhile isMailHostChar).length
        + mailLabelsLength (rest.drop (rest.takeWhile isMailHostChar).length) := by
  unfold addressLength? at hn
  dsimp only at hn
  split at hn
  · next rest hrest =>
    refine ⟨rest, hrest, ?_⟩
    grind
  · simp at hn

/-- A bare host, taken apart: its labels, a top-level domain, and a path if there is one. -/
theorem mem_hostLength? {before : Option Char} {t : Text} {n : Nat}
    (hn : n ∈ hostLength? before t) :
    ∃ k ∈ hostLengths t, ∃ domain ∈ topLevelLength? (t.drop k),
      n = k + domain + pathLength (t.drop (k + domain)) := by
  simp only [hostLength?, Option.mem_def, Option.ite_none_right_eq_some] at hn
  obtain ⟨k, hk, hdomain⟩ := List.exists_of_findSome?_eq_some hn.2
  simp only [Option.bind_eq_bind, Option.bind_eq_some_iff, Option.some.injEq] at hdomain
  obtain ⟨domain, hdomain, rfl⟩ := hdomain
  exact ⟨k, hk, domain, hdomain, rfl⟩

/-! No part reaches past the end of the text. -/

/-- No part of a link is longer than the text that it is found in, and so is none of the links. -/
theorem schemeLength?_le {t : Text} : ∀ n ∈ schemeLength? t, n ≤ t.length := by
  intro n hn
  cases t with
  | nil => simp [schemeLength?] at hn
  | cons c rest =>
    simp only [schemeLength?, Option.mem_def, Option.ite_none_right_eq_some,
      Option.some.injEq] at hn
    obtain ⟨hopening, rfl⟩ := hn
    have hfixed := (Bool.and_eq_true _ _).mp hopening
    have hlength := (List.isPrefixOf_iff_prefix.mp hfixed.2).length_le
    rw [List.length_drop] at hlength
    simp only [String.reduceToList, List.length_cons, List.length_nil] at hlength ⊢
    omega

theorem openingLength?_le {opening t : Text} : ∀ n ∈ openingLength? opening t, n ≤ t.length := by
  intro n hn
  simp only [openingLength?, Option.mem_def, Option.ite_none_right_eq_some,
    Option.some.injEq] at hn
  obtain ⟨hopening, rfl⟩ := hn
  exact (List.isPrefixOf_iff_prefix.mp hopening).length_le

theorem topLevelLength?_le {t : Text} : ∀ n ∈ topLevelLength? t, n ≤ t.length := by
  intro n hn
  simp only [topLevelLength?, Option.mem_def, Option.bind_eq_bind, Option.bind_eq_some_iff,
    Option.some.injEq] at hn
  obtain ⟨domain, hfind, rfl⟩ := hn
  have hfound := List.find?_some hfind
  have hdomain := (Bool.and_eq_true _ _).mp hfound
  exact (List.isPrefixOf_iff_prefix.mp hdomain.1).length_le

theorem hostLengths_le {t : Text} : ∀ n ∈ hostLengths t, n ≤ t.length := by
  fun_induction hostLengths t with
  | case1 t label hempty => simp
  | case2 t label hlabel rest hrest ih =>
    intro n hn
    have hlength := congrArg List.length hrest
    rw [List.length_drop, List.length_cons] at hlength
    rcases List.mem_append.mp hn with hn | hn
    · obtain ⟨k, hk, rfl⟩ := List.mem_map.mp hn
      have hle := ih k hk
      omega
    · have hn := List.mem_singleton.mp hn
      omega
  | case3 t label hlabel hrest => simp

theorem mailLabelsLength_le (t : Text) : mailLabelsLength t ≤ t.length := by
  fun_induction mailLabelsLength t with
  | case1 => exact Nat.zero_le _
  | case2 rest label hlabel ih =>
    have hle : label.length ≤ rest.length := Text.length_takeWhile_le isMailHostChar rest
    rw [List.length_drop] at ih
    rw [List.length_cons]
    omega
  | case3 => exact Nat.zero_le _

theorem addressLength?_le {t : Text} : ∀ n ∈ addressLength? t, n ≤ t.length := by
  intro n hn
  obtain ⟨rest, hrest, -, rfl⟩ := mem_addressLength? hn
  have hlength := congrArg List.length hrest
  have hlabel := Text.length_takeWhile_le isMailHostChar rest
  have hmore := mailLabelsLength_le (rest.drop (rest.takeWhile isMailHostChar).length)
  rw [List.length_drop, List.length_cons] at hlength
  rw [List.length_drop] at hmore
  omega

theorem tailLength_le (t : Text) : tailLength t ≤ t.length := by
  have hle := (List.dropWhile_suffix closesSentence
    (l := (t.takeWhile (!stopsLink ·)).reverse)).length_le
  rw [List.length_reverse] at hle
  exact hle.trans (Text.length_takeWhile_le _ t)

theorem pathLength_le (t : Text) : pathLength t ≤ t.length := by
  unfold pathLength
  split
  · next rest =>
    have hle := tailLength_le rest
    rw [List.length_cons]
    split <;> omega
  · exact Nat.zero_le _

theorem withTail?_le {opening : Option Nat} {t : Text} (hopening : ∀ n ∈ opening, n ≤ t.length) :
    ∀ n ∈ withTail? opening t, n ≤ t.length := by
  intro n hn
  obtain ⟨k, hk, -, rfl⟩ := mem_withTail? hn
  have hbefore := hopening k hk
  have hle := tailLength_le (t.drop k)
  rw [List.length_drop] at hle
  omega

theorem hostLength?_le {before : Option Char} {t : Text} :
    ∀ n ∈ hostLength? before t, n ≤ t.length := by
  intro n hn
  obtain ⟨k, hk, domain, hdomain, rfl⟩ := mem_hostLength? hn
  have hhost := hostLengths_le k hk
  have hbound := topLevelLength?_le domain hdomain
  have hpath := pathLength_le (t.drop (k + domain))
  rw [List.length_drop] at hbound hpath
  omega

/-- The three kinds of links. -/
theorem linkLength?_kind {before : Option Char} {t : Text} {n : Nat}
    (hn : n ∈ linkLength? before t) :
    (∃ opening, (∀ k ∈ opening, k ≤ t.length) ∧ n ∈ withTail? opening t)
      ∨ n ∈ addressLength? t ∨ n ∈ hostLength? before t := by
  simp only [linkLength?, Option.mem_def, Option.orElse_eq_orElse, Option.orElse_eq_or,
    Option.or_eq_some_iff] at hn
  rcases hn with hn | ⟨-, hn | ⟨-, hn | ⟨-, hn | ⟨-, hn⟩⟩⟩⟩
  · exact Or.inl ⟨_, schemeLength?_le, hn⟩
  · exact Or.inl ⟨_, openingLength?_le, hn⟩
  · exact Or.inl ⟨_, openingLength?_le, hn⟩
  · exact Or.inr (Or.inl hn)
  · exact Or.inr (Or.inr hn)

theorem linkLength?_le {before : Option Char} {t : Text} :
    ∀ n ∈ linkLength? before t, n ≤ t.length := by
  intro n hn
  rcases linkLength?_kind hn with ⟨opening, hopening, hn⟩ | hn | hn
  · exact withTail?_le hopening n hn
  · exact addressLength?_le n hn
  · exact hostLength?_le n hn

/-! ## A character behind a part

What a part of a link makes of a text is the same with a character behind it that the part does not
go on with. -/

section Behind

variable {s : Char} {z : Text} (r : Text)

/-- The labels of an address end at a character that no label can have, if nothing behind it is a
label. -/
theorem mailLabelsLength_append (hhost : isMailHostChar s = false)
    (hzero : mailLabelsLength (s :: z) = 0) :
    mailLabelsLength (r ++ s :: z) = mailLabelsLength r := by
  fun_induction mailLabelsLength r with
  | case1 rest label hempty =>
    rw [List.cons_append, mailLabelsLength]
    simp only [Text.takeWhile_append_cons hhost]
    exact if_pos hempty
  | case2 rest label hlabel ih =>
    rw [List.cons_append, mailLabelsLength]
    simp only [Text.takeWhile_append_cons hhost]
    rw [if_neg hlabel, Text.drop_append_cons (Text.length_takeWhile_le _ _), ih]
  | case3 t hshape =>
    cases t with
    | nil => exact hzero
    | cons c t =>
      rw [List.cons_append]
      unfold mailLabelsLength
      split
      · next rest heq => exact (hshape t (by grind)).elim
      · rfl

/-- A top-level domain ends at a character that is no word character, if that does not complete
another domain. -/
theorem topLevelLength?_append (hword : isWord s = false)
    (hfixed : ∀ domain ∈ topLevelDomains, domain.isPrefixOf (r ++ s :: z) = domain.isPrefixOf r) :
    topLevelLength? (r ++ s :: z) = topLevelLength? r := by
  have hfind : topLevelDomains.find? (fun domain => domain.isPrefixOf (r ++ s :: z)
        && atBoundary domain.getLast? ((r ++ s :: z).drop domain.length).head?)
      = topLevelDomains.find? (fun domain => domain.isPrefixOf r
        && atBoundary domain.getLast? (r.drop domain.length).head?) := by
    apply List.find?_congr
    intro domain hmem
    rw [hfixed domain hmem]
    by_cases hpre : domain.isPrefixOf r
    · have hle := (List.isPrefixOf_iff_prefix.mp hpre).length_le
      rw [Text.drop_append_cons hle]
      cases r.drop domain.length <;> simp [atBoundary, hword]
    · simp [hpre]
  unfold topLevelLength?
  rw [hfind]

end Behind

section Append

variable {s : Char} (hs : parts s = true) (r z : Text)

include hs

/-- What stands behind a character that parts links does not change the scheme that is found before
it. The lemmas that follow say so of the other parts of links. -/
theorem schemeLength?_append : schemeLength? (r ++ s :: z) = schemeLength? r := by
  have hscheme := isSchemeChar_of_parts hs
  have hfixed : s ∉ "://".toList := not_mem_of_parts hs any_parts_scheme
  cases r with
  | nil =>
    have hletter : s.isAlpha = false := by
      simp only [isSchemeChar, Char.isAlphanum] at hscheme
      grind
    simp [schemeLength?, hletter]
  | cons c r =>
    have hrun := Text.takeWhile_append_cons hscheme (c :: r) z
    unfold schemeLength?
    simp only [List.cons_append] at hrun ⊢
    rw [hrun, ← List.cons_append, Text.drop_append_cons (Text.length_takeWhile_le _ _),
      Text.isPrefixOf_append_cons hfixed]

theorem openingLength?_append {opening : Text} (hopening : opening.any parts = false) :
    openingLength? opening (r ++ s :: z) = openingLength? opening r := by
  unfold openingLength?
  rw [Text.isPrefixOf_append_cons (not_mem_of_parts hs hopening)]

theorem addressLength?_append : addressLength? (r ++ s :: z) = addressLength? r := by
  have hat : s ≠ '@' := ne_of_parts hs (by decide)
  have hdot : s ≠ '.' := ne_of_parts hs (by decide)
  have hzero : mailLabelsLength (s :: z) = 0 := by simp [mailLabelsLength, hdot]
  unfold addressLength?
  simp only [Text.takeWhile_append_cons (isMailboxChar_of_parts hs)]
  rw [Text.drop_append_cons (Text.length_takeWhile_le _ _)]
  cases r.drop (r.takeWhile isMailboxChar).length with
  | nil => simp [hat]
  | cons c rest =>
    by_cases hc : c = '@'
    · subst hc
      simp only [List.cons_append, Text.takeWhile_append_cons (isMailHostChar_of_parts hs)]
      rw [Text.drop_append_cons (Text.length_takeWhile_le _ _),
        mailLabelsLength_append _ (isMailHostChar_of_parts hs) hzero]
    · simp [hc]

theorem hostLengths_append : hostLengths (r ++ s :: z) = hostLengths r := by
  have hdot : s ≠ '.' := ne_of_parts hs (by decide)
  have hhost := isHostChar_of_parts hs
  fun_induction hostLengths r with
  | case1 t label hempty =>
    rw [hostLengths_eq, Text.takeWhile_append_cons hhost]
    exact if_pos hempty
  | case2 t label hlabel rest hrest ih =>
    rw [hostLengths_eq, Text.takeWhile_append_cons hhost,
      Text.drop_append_cons (Text.length_takeWhile_le _ _), if_neg hlabel, hrest]
    simp only [List.cons_append, ih]
    rfl
  | case3 t label hlabel hrest =>
    rw [hostLengths_eq, Text.takeWhile_append_cons hhost,
      Text.drop_append_cons (Text.length_takeWhile_le _ _), if_neg hlabel]
    split
    · next rest heq =>
      match hdrop : t.drop label.length with
      | [] =>
        rw [hdrop] at heq
        exact absurd (List.cons.inj heq).1 hdot
      | c :: more =>
        rw [hdrop] at heq
        exact (hrest more (by grind)).elim
    · rfl

theorem topLevelLength?_append_of_parts : topLevelLength? (r ++ s :: z) = topLevelLength? r := by
  refine topLevelLength?_append r (isWord_of_parts hs) fun domain hmem => ?_
  have hfixed : domain.any parts = false := by
    simpa using List.any_eq_false.mp any_parts_topLevelDomains domain hmem
  exact Text.isPrefixOf_append_cons (not_mem_of_parts hs hfixed) r z

/-- A tail ends before the character or runs over it. It runs over only if the character stops no
tail, and then it holds all of the text before. -/
theorem tailLength_append : tailLength (r ++ s :: z) = tailLength r
    ∨ stopsLink s = false ∧ r.length < tailLength (r ++ s :: z) := by
  unfold tailLength
  by_cases hstop : stopsLink s
  · left
    rw [Text.takeWhile_append_cons (by simpa using hstop)]
  · rw [List.takeWhile_append]
    split
    · right
      have hrun : (s :: z).takeWhile (!stopsLink ·) = s :: z.takeWhile (!stopsLink ·) := by
        simp [hstop]
      refine ⟨by simpa using hstop, ?_⟩
      rw [hrun, List.reverse_append, List.reverse_cons, List.append_assoc, ← List.length_reverse]
      exact Text.length_lt_dropWhile_append (closesSentence_of_parts hs) _ _
    · left
      rfl

end Append

/-! ## Links -/

/-- A length in a longer text is the one in the text before `s`, which has the length `n`, unless
it goes over `s`. -/
def Settled (s : Char) (n : Nat) (longer alone : Option Nat) : Prop :=
  longer = alone ∨ stopsLink s = false ∧ ∃ k, longer = some k ∧ n < k

namespace Settled

variable {s : Char} {n : Nat} {longer alone longer' alone' : Option Nat}

theorem orElse (h : Settled s n longer alone) (h' : Settled s n longer' alone') :
    Settled s n (longer <|> longer') (alone <|> alone') := by
  rcases h with rfl | ⟨hstop, k, rfl, hk⟩
  · cases longer with
    | none => simpa using h'
    | some k => exact Or.inl rfl
  · exact Or.inr ⟨hstop, k, rfl, hk⟩

theorem findSome? {f g : Nat → Option Nat} {ks : List Nat}
    (h : ∀ k ∈ ks, Settled s n (f k) (g k)) :
    Settled s n (ks.findSome? f) (ks.findSome? g) := by
  induction ks with
  | nil => exact Or.inl rfl
  | cons k ks ih =>
    have hrest := ih fun k' hk' => h k' (List.mem_cons_of_mem k hk')
    have hboth := (h k List.mem_cons_self).orElse hrest
    rw [List.findSome?_cons, List.findSome?_cons]
    cases hf : f k <;> cases hg : g k <;> simpa [hf, hg] using hboth

end Settled

section Links

variable {s : Char} (hs : parts s = true) (r z : Text)

include hs

/-- Only a tail can run over a character that parts links, and then it is longer than the text
before. -/
theorem withTail?_append {n : Option Nat} (hn : ∀ k ∈ n, k ≤ r.length) :
    Settled s r.length (withTail? n (r ++ s :: z)) (withTail? n r) := by
  cases n with
  | none => exact Or.inl rfl
  | some k =>
    have hk := hn k rfl
    simp only [withTail?, Option.bind_eq_bind, Option.bind_some]
    rw [Text.drop_append_cons hk]
    rcases tailLength_append hs (r.drop k) z with h | ⟨hstop, h⟩
    · left
      rw [h]
    · rw [List.length_drop] at h
      right
      refine ⟨hstop, k + tailLength (r.drop k ++ s :: z), if_neg ?_, ?_⟩
      · omega
      · omega

theorem pathLength_append : pathLength (r ++ s :: z) = pathLength r
    ∨ stopsLink s = false ∧ r.length < pathLength (r ++ s :: z) := by
  have hslash : s ≠ '/' := ne_of_parts hs (by decide)
  match r with
  | [] =>
    left
    simp [pathLength, hslash]
  | c :: rest =>
    by_cases hc : c = '/'
    · subst hc
      simp only [List.cons_append, pathLength, List.length_cons]
      rcases tailLength_append hs rest z with h | ⟨hstop, h⟩
      · left
        rw [h]
      · right
        rw [if_neg (by omega)]
        exact ⟨hstop, by omega⟩
    · left
      simp [pathLength, hc]

theorem hostLength?_append (before : Option Char) :
    Settled s r.length (hostLength? before (r ++ s :: z)) (hostLength? before r) := by
  have hboundary : atBoundary before (r ++ s :: z).head? = atBoundary before r.head? := by
    cases r with
    | nil => simp [atBoundary, isWord_of_parts hs]
    | cons c r => rfl
  unfold hostLength?
  rw [hboundary, hostLengths_append hs]
  split
  -- each end of the host is settled by itself, and so is the first that makes a link
  · apply Settled.findSome?
    intro n hn
    have hle := hostLengths_le n hn
    rw [Text.drop_append_cons hle, topLevelLength?_append_of_parts hs]
    match hdomain : topLevelLength? (r.drop n) with
    | none => exact Or.inl rfl
    | some domain =>
      have hbound := topLevelLength?_le domain hdomain
      rw [List.length_drop] at hbound
      have hend : n + domain ≤ r.length := by omega
      simp only [Option.bind_eq_bind, Option.bind_some]
      rw [Text.drop_append_cons hend]
      -- only a path may reach the character and go on
      rcases pathLength_append hs (r.drop (n + domain)) z with h | ⟨hstop, h⟩
      · left
        rw [h]
      · rw [List.length_drop] at h
        right
        exact ⟨hstop, _, rfl, by omega⟩
  · exact Or.inl rfl

/-- Such a character leaves the link before it as it would be at the end of the text, unless the
link goes over it. -/
theorem linkLength?_append (before : Option Char) :
    Settled s r.length (linkLength? before (r ++ s :: z)) (linkLength? before r) := by
  unfold linkLength?
  rw [schemeLength?_append hs, openingLength?_append hs _ _ any_parts_mailto,
    openingLength?_append hs _ _ any_parts_www, addressLength?_append hs]
  have haddress : Settled s r.length (addressLength? r) (addressLength? r) := Or.inl rfl
  exact (withTail?_append hs r z schemeLength?_le).orElse
    ((withTail?_append hs r z openingLength?_le).orElse
      ((withTail?_append hs r z openingLength?_le).orElse
        (haddress.orElse (hostLength?_append hs r z before))))

/-- No link begins at such a character. -/
theorem linkLength?_cons_of_parts (before : Option Char) :
    linkLength? before (s :: z) = none := by
  have hscheme : schemeLength? (s :: z) = none := schemeLength?_append hs [] z
  have hmailto : openingLength? "mailto:".toList (s :: z) = none :=
    (openingLength?_append hs [] z any_parts_mailto).trans (by decide)
  have hweb : openingLength? "www.".toList (s :: z) = none :=
    (openingLength?_append hs [] z any_parts_www).trans (by decide)
  have haddress : addressLength? (s :: z) = none := addressLength?_append hs [] z
  have hhost : hostLength? before (s :: z) = none := by
    have hlengths : hostLengths (s :: z) = hostLengths [] := hostLengths_append hs [] z
    simp [hostLength?, hlengths, hostLengths_eq]
  unfold linkLength?
  rw [hscheme, hmailto, hweb, haddress, hhost]
  rfl

end Links

/-! ## The character before a link

It decides whether a bare host can begin, and nothing else. -/

theorem mem_hostLengths_cons {c : Char} {t : Text} (hc : isHostChar c = true) {n : Nat}
    (hn : n ∈ hostLengths t) : n + 1 ∈ hostLengths (c :: t) := by
  rw [hostLengths_eq] at hn ⊢
  simp only [List.takeWhile_cons, hc, if_true, List.length_cons, List.drop_succ_cons]
  split at hn
  · simp at hn
  · rw [if_neg (by simp)]
    split at hn
    · grind
    · simp at hn

/-- Where a character that belongs to a host stands between words and begins no host, no host begins
behind it. -/
theorem hostLength?_of_cons {before : Option Char} {c : Char} {t : Text} (hc : isHostChar c = true)
    (hboundary : atBoundary before (some c) = true) (hnone : hostLength? before (c :: t) = none)
    (before' : Option Char) : hostLength? before' t = none := by
  unfold hostLength? at hnone ⊢
  rw [List.head?_cons, if_pos hboundary, List.findSome?_eq_none_iff] at hnone
  split
  · rw [List.findSome?_eq_none_iff]
    intro n hn
    have hlonger := hnone (n + 1) (mem_hostLengths_cons hc hn)
    rw [List.drop_succ_cons] at hlonger
    match hdomain : topLevelLength? (t.drop n) with
    | none => rfl
    | some domain => simp [hdomain] at hlonger
  · rfl

/-! ## A link is not empty -/

/-- No part of a link is empty, so a link holds a character at least, and the search for links moves
on behind it. -/
theorem hostLengths_pos {t : Text} : ∀ n ∈ hostLengths t, 0 < n := by
  intro n hn
  rw [hostLengths_eq] at hn
  split at hn
  · simp at hn
  · split at hn
    · grind
    · simp at hn

theorem withTail?_pos {opening : Option Nat} {t : Text} : ∀ n ∈ withTail? opening t, 0 < n := by
  intro n hn
  obtain ⟨k, -, hpos, rfl⟩ := mem_withTail? hn
  omega

theorem addressLength?_pos {t : Text} : ∀ n ∈ addressLength? t, 0 < n := by
  intro n hn
  obtain ⟨rest, -, hpos, rfl⟩ := mem_addressLength? hn
  omega

theorem hostLength?_pos {before : Option Char} {t : Text} : ∀ n ∈ hostLength? before t, 0 < n := by
  intro n hn
  obtain ⟨k, hk, domain, -, rfl⟩ := mem_hostLength? hn
  have hpos := hostLengths_pos k hk
  omega

theorem linkLength?_pos {before : Option Char} {t : Text} : ∀ n ∈ linkLength? before t, 0 < n := by
  intro n hn
  rcases linkLength?_kind hn with ⟨opening, -, hn⟩ | hn | hn
  · exact withTail?_pos n hn
  · exact addressLength?_pos n hn
  · exact hostLength?_pos n hn

/-- At a place there is no link, or one that takes a character and `n` more. -/
theorem linkLength?_cases (before : Option Char) (t : Text) :
    linkLength? before t = none ∨ ∃ n, linkLength? before t = some (n + 1) := by
  match hlink : linkLength? before t with
  | none => exact Or.inl rfl
  | some 0 => exact absurd (linkLength?_pos 0 hlink) (lt_irrefl 0)
  | some (n + 1) => exact Or.inr ⟨n, rfl⟩

/-- A character that no link holds begins none. -/
theorem linkLength?_of_unmarked {before : Option Char} {linked : Nat} {c : Char} {rest : Text}
    (h : (linkMarksFrom before linked (c :: rest))[0]? = some false) :
    linked = 0 ∧ linkLength? before (c :: rest) = none := by
  cases linked with
  | succ linked => simp at h
  | zero =>
    rcases linkLength?_cases before (c :: rest) with hnone | ⟨n, hlink⟩
    · exact ⟨rfl, hnone⟩
    · simp [linkMarksFrom_of_link hlink] at h

/-- No link goes over a character that stops links, or holds it. So a text falls apart at such a
character as far as links are concerned. -/
theorem linkMarksFrom_getElem?_of_stopsLink {s : Char} (hs : parts s = true)
    (hstop : stopsLink s = true) (a z : Text) (before : Option Char) {linked : Nat}
    (hlinked : linked ≤ a.length) :
    (linkMarksFrom before linked (a ++ s :: z))[a.length]? = some false := by
  induction a generalizing before linked with
  | nil =>
    obtain rfl := Nat.le_zero.mp hlinked
    rw [List.nil_append, linkMarksFrom_of_none (linkLength?_cons_of_parts hs z before)]
    rfl
  | cons x a ih =>
    rw [List.length_cons] at hlinked
    rw [List.cons_append, List.length_cons]
    cases linked with
    | succ linked =>
      rw [linkMarksFrom_succ, List.getElem?_cons_succ]
      exact ih _ (by omega)
    | zero =>
      rcases linkLength?_cases before (x :: (a ++ s :: z)) with hnone | ⟨n, hlink⟩
      · rw [linkMarksFrom_of_none hnone, List.getElem?_cons_succ]
        exact ih _ (Nat.zero_le _)
      · rw [linkMarksFrom_of_link hlink, List.getElem?_cons_succ]
        apply ih
        -- a link is as long as without the character, or goes on with it, and this one stops links
        rcases linkLength?_append hs (x :: a) z before with hsame | ⟨hgoes, -⟩
        · have hle := linkLength?_le (n + 1) (hsame.symm.trans hlink)
          rw [List.length_cons] at hle
          omega
        · rw [hstop] at hgoes
          cases hgoes

end Orthography.Prose
