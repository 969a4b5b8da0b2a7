/-
The links of a text are what the search for one pattern finds.

A pattern may be tried in many ways at one place; a link has one length there. The two agree for
three reasons. What follows a run in the pattern begins with no character of the run, so it can only
stand behind all of it (`lengths_seq_many_one`): so it is with a scheme, a mailbox, and a label
before its full stop. Where nothing has to follow, as behind a tail or the labels of a mail host,
the first try is the longest (`head?_lengths_tail`, `head?_lengths_labels`). And the labels of a
bare host are tried from the most to the fewest, the order in which `hostLengths` lists their ends
(`lengths_hostLabels`). Main statements, `head?_lengths_link`, put together from the three kinds of
link, and `stripLinks_eq_erase`.
-/
import Mathlib.Data.List.Basic
import Orthography.Proofs.Prose.Links
import Orthography.Prose.Pattern

set_option autoImplicit false

namespace Orthography.Prose

namespace Pattern

variable {before : Option Char} {c : Char} {t w : Text} {p : Char → Bool} {a b : Pattern}

/-! ## Places -/

@[simp] theorem charBefore_zero (before : Option Char) (t : Text) :
    charBefore before t 0 = before :=
  rfl

@[simp] theorem charBefore_succ (before : Option Char) (c : Char) (t : Text) (n : Nat) :
    charBefore before (c :: t) (n + 1) = charBefore (some c) t n := by
  rw [charBefore, charBefore, List.take_succ_cons, List.getLast?_cons]
  cases (t.take n).getLast? <;> rfl

theorem charBefore_add (before : Option Char) (t : Text) (n m : Nat) :
    charBefore before t (n + m) = charBefore (charBefore before t n) (t.drop n) m := by
  rw [charBefore, charBefore, charBefore, List.take_add, List.getLast?_append, Option.or_assoc]

/-! ## Sequences -/

theorem map_add_map_add (n m : Nat) (lengths : List Nat) :
    (lengths.map (n + ·)).map (m + ·) = lengths.map (m + n + ·) := by
  simp only [List.map_map, Function.comp_def, Nat.add_assoc]

/-- A sequence matches by each way of its first part, with each way of the second behind it. The
order of the ways is the order in which they are tried. -/
theorem lengths_seq (a b : Pattern) (before : Option Char) (t : Text) :
    (seq a b).lengths before t = (a.lengths before t).flatMap fun n =>
      (b.lengths (charBefore before t n) (t.drop n)).map (n + ·) := rfl

theorem lengths_either (a b : Pattern) (before : Option Char) (t : Text) :
    (either a b).lengths before t = a.lengths before t ++ b.lengths before t := rfl

theorem lengths_optional (a : Pattern) (before : Option Char) (t : Text) :
    (optional a).lengths before t = a.lengths before t ++ [0] := rfl

/-- How a sequence is bracketed makes no difference, not even to the order of its ways. -/
theorem lengths_seq_assoc (a b d : Pattern) (before : Option Char) (t : Text) :
    (seq (seq a b) d).lengths before t = (seq a (seq b d)).lengths before t := by
  simp only [lengths_seq, List.flatMap_assoc, List.flatMap_map, List.map_flatMap, List.map_map,
    charBefore_add, List.drop_drop, Function.comp_def, Nat.add_assoc]

/-- What a sequence matches first: the first way of its first part behind which the second part
matches at all. -/
theorem head?_lengths_seq (a b : Pattern) (before : Option Char) (t : Text) :
    ((seq a b).lengths before t).head? = (a.lengths before t).findSome? fun n =>
      (b.lengths (charBefore before t n) (t.drop n)).head?.map (n + ·) := by
  rw [lengths_seq, List.head?_flatMap]
  simp only [List.head?_map]

theorem lengths_seq_one_cons (hc : p c = true) :
    (seq (one p) b).lengths before (c :: t) = (b.lengths (some c) t).map (1 + ·) := by
  simp [lengths, hc]

theorem lengths_one_of_stop (h : ∀ c ∈ t.head?, p c = false) : (one p).lengths before t = [] := by
  cases t with
  | nil => rfl
  | cons c t => simp [lengths, h c rfl]

theorem lengths_seq_of_nil (h : a.lengths before t = []) : (seq a b).lengths before t = [] := by
  rw [lengths_seq, h, List.flatMap_nil]

theorem lengths_seq_fixed_of_present (h : w.isPrefixOf t = true) :
    (seq (fixed w) b).lengths before t
      = (b.lengths (charBefore before t w.length) (t.drop w.length)).map (w.length + ·) := by
  simp [lengths, h]

theorem lengths_fixed_of_absent (h : w.isPrefixOf t = false) :
    (fixed w).lengths before t = [] := by
  simp [lengths, h]

/-- A fixed text does not stand where a character of a class stands that its first is not of. -/
theorem lengths_fixed_cons_of_class {d : Char} (hd : p d = false) (w : Text)
    (before : Option Char) (hc : p c = true) (t : Text) :
    (fixed (d :: w)).lengths before (c :: t) = [] := by
  apply lengths_fixed_of_absent
  have hne : d ≠ c := by
    rintro rfl
    rw [hd] at hc
    cases hc
  simp [List.isPrefixOf, hne]

/-! ## Repetitions -/

/-- No round of a repetition reaches past the end of the text, whatever is repeated. -/
theorem repeated_le {round : Option Char → Text → List Nat} (before : Option Char) (t : Text) :
    ∀ n ∈ repeated round before t, n ≤ t.length := by
  induction hlength : t.length using Nat.strongRecOn generalizing before t with
  | _ k ih =>
    intro n hn
    rw [repeated] at hn
    rcases List.mem_append.mp hn with hn | hn
    · obtain ⟨m, -, hn⟩ := List.mem_flatMap.mp hn
      split at hn
      · obtain ⟨j, hj, rfl⟩ := List.mem_map.mp hn
        have hle := ih (t.drop m).length (by rw [List.length_drop]; omega) _ _ rfl j hj
        rw [List.length_drop] at hle
        omega
      · cases hn
    · have hzero := List.mem_singleton.mp hn
      omega

/-- No pattern reaches past the end of the text. The induction is on the pattern, with the
repetition for itself (`repeated_le`). -/
theorem lengths_le (a : Pattern) (before : Option Char) (t : Text) :
    ∀ n ∈ a.lengths before t, n ≤ t.length := by
  induction a generalizing before t with
  | one p =>
    intro n hn
    cases t with
    | nil => simp [lengths] at hn
    | cons c t =>
      rw [lengths] at hn
      split at hn
      · obtain rfl := List.mem_singleton.mp hn
        simp
      · cases hn
  | fixed w =>
    intro n hn
    rw [lengths] at hn
    split at hn
    · next hstands =>
      obtain rfl := List.mem_singleton.mp hn
      exact (List.isPrefixOf_iff_prefix.mp hstands).length_le
    · cases hn
  | boundary =>
    intro n hn
    rw [lengths] at hn
    split at hn
    · obtain rfl := List.mem_singleton.mp hn
      exact Nat.zero_le _
    · cases hn
  | seq a b iha ihb =>
    intro n hn
    obtain ⟨m, hm, hn⟩ := List.mem_flatMap.mp hn
    obtain ⟨j, hj, rfl⟩ := List.mem_map.mp hn
    -- the second stretch is counted in the text that the first one leaves
    have hfirst := iha _ _ m hm
    have hsecond := ihb _ _ j hj
    rw [List.length_drop] at hsecond
    omega
  | either a b iha ihb =>
    intro n hn
    rcases List.mem_append.mp hn with hn | hn
    · exact iha _ _ n hn
    · exact ihb _ _ n hn
  | optional a ih =>
    intro n hn
    rcases List.mem_append.mp hn with hn | hn
    · exact ih _ _ n hn
    · obtain rfl := List.mem_singleton.mp hn
      exact Nat.zero_le _
  | many a => exact repeated_le before t

/-- The pattern takes a character at least. -/
def Consumes (a : Pattern) : Prop := ∀ before t, ∀ n ∈ a.lengths before t, 0 < n

theorem consumes_one (p : Char → Bool) : Consumes (one p) := by
  intro before t n hn
  rw [lengths] at hn
  split at hn
  · obtain rfl := List.mem_singleton.mp hn
    exact Nat.one_pos
  · cases hn

theorem consumes_fixed (hw : w ≠ []) : Consumes (fixed w) := by
  intro before t n hn
  rw [lengths] at hn
  split at hn
  · obtain rfl := List.mem_singleton.mp hn
    exact List.length_pos_of_ne_nil hw
  · cases hn

theorem Consumes.seq (ha : Consumes a) (b : Pattern) : Consumes (seq a b) := by
  intro before t n hn
  obtain ⟨m, hm, hn⟩ := List.mem_flatMap.mp hn
  obtain ⟨j, -, rfl⟩ := List.mem_map.mp hn
  exact Nat.add_pos_left (ha _ _ m hm) j

/-- Where every round takes a character, a repetition is at least one round, or none. -/
theorem lengths_many (ha : Consumes a) (before : Option Char) (t : Text) :
    (many a).lengths before t = (atLeastOnce a).lengths before t ++ [0] := by
  rw [lengths, repeated, atLeastOnce, lengths_seq]
  congr 1
  apply List.flatMap_congr
  intro n hn
  rw [if_pos ⟨ha before t n hn, lengths_le a before t n hn⟩]
  rfl

/-- What is repeated any number of times matches first what is repeated at least once does, or
nothing. -/
theorem head?_lengths_many (ha : Consumes a) {n : Nat}
    (h : ((atLeastOnce a).lengths before t).head? = if n = 0 then none else some n) :
    ((many a).lengths before t).head? = some n := by
  rw [lengths_many ha, List.head?_append, h]
  split
  · next hzero => rw [hzero]; rfl
  · rfl

/-! ## Runs -/

theorem lengths_many_one_of_stop (h : ∀ c ∈ t.head?, p c = false) :
    (many (one p)).lengths before t = [0] := by
  rw [lengths_many (consumes_one p), atLeastOnce, lengths_seq_of_nil (lengths_one_of_stop h),
    List.nil_append]

/-- Where one stands the run goes on behind it, and stopping right here comes last. -/
theorem lengths_many_one_cons (hc : p c = true) :
    (many (one p)).lengths before (c :: t)
      = ((many (one p)).lengths (some c) t).map (1 + ·) ++ [0] := by
  rw [lengths_many (consumes_one p), atLeastOnce, lengths_seq_one_cons hc]

/-- What follows a run is tried behind all of the run first, and at its beginning last. -/
theorem lengths_seq_many_one_cons (hc : p c = true) :
    (seq (many (one p)) b).lengths before (c :: t)
      = ((seq (many (one p)) b).lengths (some c) t).map (1 + ·) ++ b.lengths before (c :: t) := by
  simp only [lengths_seq, lengths_many_one_cons hc, List.flatMap_append, List.flatMap_map,
    List.map_flatMap, List.map_map, Function.comp_def, Nat.add_assoc, Nat.add_comm 1]
  simp

theorem lengths_seq_many_one_of_stop (h : ∀ c ∈ t.head?, p c = false) :
    (seq (many (one p)) b).lengths before t = b.lengths before t := by
  rw [lengths_seq, lengths_many_one_of_stop h]
  simp

/-- **No way back.** If what follows a run begins with no character of the run, it is tried behind
all of the run only. -/
theorem lengths_seq_many_one (hb : ∀ before c t, p c = true → b.lengths before (c :: t) = [])
    (before : Option Char) (t : Text) :
    (seq (many (one p)) b).lengths before t
      = (b.lengths (charBefore before t (t.takeWhile p).length)
          (t.drop (t.takeWhile p).length)).map ((t.takeWhile p).length + ·) := by
  induction t generalizing before with
  | nil =>
    rw [lengths_seq_many_one_of_stop (by simp)]
    simp
  | cons c t ih =>
    by_cases hc : p c = true
    · rw [lengths_seq_many_one_cons hc, hb _ _ _ hc, List.append_nil, ih,
        List.takeWhile_cons_of_pos hc]
      simp only [List.length_cons, charBefore_succ, List.drop_succ_cons, map_add_map_add]
      rw [Nat.add_comm 1]
    · rw [lengths_seq_many_one_of_stop (by simpa using hc), List.takeWhile_cons_of_neg hc]
      simp

/-- A run before something that cannot begin with a character of the run: only the longest run leads
on, so all the others that are tried come to nothing. -/
theorem lengths_seq_run (hb : ∀ before c t, p c = true → b.lengths before (c :: t) = [])
    (before : Option Char) (t : Text) :
    (seq (run p) b).lengths before t
      = if (t.takeWhile p).isEmpty then []
        else (b.lengths (charBefore before t (t.takeWhile p).length)
          (t.drop (t.takeWhile p).length)).map ((t.takeWhile p).length + ·) := by
  rw [run, lengths_seq_assoc]
  cases t with
  | nil =>
    rw [lengths_seq_of_nil (lengths_one_of_stop (by simp))]
    rfl
  | cons c t =>
    by_cases hc : p c = true
    · rw [lengths_seq_one_cons hc, lengths_seq_many_one hb, List.takeWhile_cons_of_pos hc,
        if_neg (by simp)]
      simp only [List.length_cons, charBefore_succ, List.drop_succ_cons, map_add_map_add]
      rw [Nat.add_comm 1]
    · rw [lengths_seq_of_nil (lengths_one_of_stop (by simpa using hc)),
        List.takeWhile_cons_of_neg hc]
      rfl

/-- The longest run comes first. -/
theorem head?_lengths_many_one (before : Option Char) (t : Text) :
    ((many (one p)).lengths before t).head? = some (t.takeWhile p).length := by
  induction t generalizing before with
  | nil =>
    rw [lengths_many_one_of_stop (by simp)]
    rfl
  | cons c t ih =>
    by_cases hc : p c = true
    · rw [lengths_many_one_cons hc, List.head?_append, List.head?_map, ih,
        List.takeWhile_cons_of_pos hc]
      simp [Nat.add_comm]
    · rw [lengths_many_one_of_stop (by simpa using hc), List.takeWhile_cons_of_neg hc]
      rfl

theorem head?_lengths_run (before : Option Char) (t : Text) :
    ((run p).lengths before t).head?
      = if (t.takeWhile p).isEmpty then none else some (t.takeWhile p).length := by
  cases t with
  | nil =>
    rw [run, lengths_seq_of_nil (lengths_one_of_stop (by simp))]
    rfl
  | cons c t =>
    by_cases hc : p c = true
    · rw [run, lengths_seq_one_cons hc, List.head?_map, head?_lengths_many_one,
        List.takeWhile_cons_of_pos hc, if_neg (by simp)]
      simp [Nat.add_comm]
    · rw [run, lengths_seq_of_nil (lengths_one_of_stop (by simpa using hc)),
        List.takeWhile_cons_of_neg hc]
      rfl

/-! ## Openings and tails -/

theorem tailLength_cons_of_stop (hc : stopsLink c = true) (t : Text) : tailLength (c :: t) = 0 := by
  simp [tailLength, hc]

/-- A tail by its first character: it goes on, or it is this character alone, if that does not close
a sentence. -/
theorem tailLength_cons (hc : stopsLink c = false) (t : Text) :
    tailLength (c :: t) = if tailLength t = 0 then if closesSentence c then 0 else 1
      else tailLength t + 1 := by
  unfold tailLength
  rw [List.takeWhile_cons_of_pos (by simp [hc]), List.reverse_cons, List.dropWhile_append]
  cases hrest : (t.takeWhile (!stopsLink ·)).reverse.dropWhile closesSentence with
  | nil => cases hclose : closesSentence c <;> simp [hclose]
  | cons d rest => simp

/-- A tail is as long as it can be. -/
theorem head?_lengths_tail (before : Option Char) (t : Text) :
    (tail.lengths before t).head? = if tailLength t = 0 then none else some (tailLength t) := by
  induction t generalizing before with
  | nil =>
    rw [tail, lengths_seq_many_one_of_stop (by simp), lengths_one_of_stop (by simp)]
    rfl
  | cons c t ih =>
    cases hc : stopsLink c with
    | true =>
      rw [tail, lengths_seq_many_one_of_stop (by simpa using hc),
        lengths_one_of_stop (by simp [hc]), tailLength_cons_of_stop hc]
      rfl
    | false =>
      -- what the rest gives comes first, and only then the character alone
      rw [tail] at ih ⊢
      rw [lengths_seq_many_one_cons (by simp [hc]), List.head?_append, List.head?_map, ih,
        tailLength_cons hc]
      by_cases hrest : tailLength t = 0
      · cases hclose : closesSentence c <;> simp [hrest, hclose, hc, lengths]
      · simp [hrest, Nat.add_comm]

theorem lengths_fixed (before : Option Char) (w t : Text) :
    (fixed w).lengths before t = (openingLength? w t).toList := by
  rw [lengths, openingLength?]
  split <;> rfl

theorem lengths_scheme (before : Option Char) (t : Text) :
    (seq (one Char.isAlpha) (seq (many (one isSchemeChar)) (fixed "://".toList))).lengths before t
      = (schemeLength? t).toList := by
  cases t with
  | nil =>
    rw [lengths_seq_of_nil (lengths_one_of_stop (by simp))]
    rfl
  | cons c t =>
    by_cases hc : c.isAlpha = true
    · have hscheme : isSchemeChar c = true := by simp [isSchemeChar, Char.isAlphanum, hc]
      have hcolon : ∀ before c t, isSchemeChar c = true →
          (fixed "://".toList).lengths before (c :: t) = [] :=
        fun before _ t hc => lengths_fixed_cons_of_class (by decide) _ before hc t
      rw [lengths_seq_one_cons hc, lengths_seq_many_one hcolon, schemeLength?,
        List.takeWhile_cons_of_pos hscheme, hc, Bool.true_and, lengths, List.length_cons,
        List.drop_succ_cons]
      split
      · simp
        omega
      · rfl
    · rw [lengths_seq_of_nil (lengths_one_of_stop (by simpa using hc)), schemeLength?]
      simp [hc]

theorem findSome?_tail (opening : Option Nat) (before : Option Char) (t : Text) :
    (opening.toList.findSome? fun n =>
      (tail.lengths (charBefore before t n) (t.drop n)).head?.map (n + ·))
      = withTail? opening t := by
  cases opening with
  | none => rfl
  | some n =>
    simp only [Option.toList_some, List.findSome?_singleton, head?_lengths_tail, withTail?]
    by_cases htail : tailLength (t.drop n) = 0
    · simp [htail]
    · simp [htail]

/-- They agree on the three kinds of openings, which are tried one after the other. -/
theorem head?_lengths_opening_tail (before : Option Char) (t : Text) :
    ((seq opening tail).lengths before t).head?
      = (withTail? (schemeLength? t) t <|> withTail? (openingLength? "mailto:".toList t) t
        <|> withTail? (openingLength? "www.".toList t) t) := by
  rw [head?_lengths_seq, opening, lengths_either, lengths_either, lengths_scheme, lengths_fixed,
    lengths_fixed, List.findSome?_append, List.findSome?_append, findSome?_tail, findSome?_tail,
    findSome?_tail]
  simp only [Option.orElse_eq_orElse, Option.orElse_eq_or]

/-! ## Addresses -/

/-- A sequence that begins with one fixed character, by the first character of the text. -/
theorem lengths_seq_fixed_singleton (d : Char) (b : Pattern) (before : Option Char) (c : Char)
    (t : Text) : (seq (fixed [d]) b).lengths before (c :: t)
      = if c = d then (b.lengths (some c) t).map (1 + ·) else [] := by
  by_cases hc : c = d
  · rw [if_pos hc, lengths_seq_fixed_of_present (by simp [List.isPrefixOf, hc])]
    rfl
  · rw [if_neg hc, lengths_seq_of_nil]
    rw [lengths_fixed_of_absent]
    simp [List.isPrefixOf, Ne.symm hc]

theorem lengths_seq_fixed_nil (d : Char) (b : Pattern) (before : Option Char) :
    (seq (fixed [d]) b).lengths before [] = [] := by
  rw [lengths_seq_of_nil]
  rfl

theorem lengths_atLeastOnce_of_nil (h : a.lengths before t = []) :
    (atLeastOnce a).lengths before t = [] := lengths_seq_of_nil h

/-- Labels of a class, each with a mark before it, at the beginning of a text have this length. -/
structure MeasuresLabels (d : Char) (p : Char → Bool) (f : Text → Nat) : Prop where
  mark : ∀ rest, f (d :: rest) = if (rest.takeWhile p).isEmpty then 0
    else 1 + (rest.takeWhile p).length + f (rest.drop (rest.takeWhile p).length)
  other : ∀ t, t.head? ≠ some d → f t = 0

section Labels

variable {d : Char} {f : Text → Nat}

/-- A label behind its separator takes a character at least, so repeating it ends. -/
theorem consumes_label (d : Char) (p : Char → Bool) : Consumes (seq (fixed [d]) (run p)) :=
  (consumes_fixed (by simp)).seq _

/-- Labels are as many and as long as they can be, since nothing behind them could fail. It is shown
for any separator and any class, as both links and words are made of such labels. -/
theorem head?_lengths_labels (hf : MeasuresLabels d p f) (before : Option Char) (t : Text) :
    ((atLeastOnce (seq (fixed [d]) (run p))).lengths before t).head?
      = if f t = 0 then none else some (f t) := by
  induction hlength : t.length using Nat.strongRecOn generalizing before t with
  | _ k ih =>
    by_cases hmark : t.head? = some d
    · obtain ⟨rest, rfl⟩ := List.head?_eq_some_iff.mp hmark
      rw [List.length_cons] at hlength
      have hfirst := head?_lengths_run (p := p) (some d) rest
      rw [hf.mark]
      by_cases hempty : (rest.takeWhile p).isEmpty = true
      · rw [if_pos hempty, List.head?_eq_none_iff] at hfirst
        rw [if_pos hempty, lengths_atLeastOnce_of_nil]
        · rfl
        · rw [lengths_seq_fixed_singleton, if_pos rfl, hfirst, List.map_nil]
      · rw [if_neg hempty, List.head?_eq_some_iff] at hfirst
        obtain ⟨shorter, hlengths⟩ := hfirst
        -- behind the longest label the others can be, so no shorter one is tried
        have hmany : ∀ before, ((many (seq (fixed [d]) (run p))).lengths before
            (rest.drop (rest.takeWhile p).length)).head?
              = some (f (rest.drop (rest.takeWhile p).length)) := by
          intro before
          exact head?_lengths_many (consumes_label d p)
            (ih _ (by rw [List.length_drop]; omega) _ _ rfl)
        rw [if_neg hempty, atLeastOnce, head?_lengths_seq, lengths_seq_fixed_singleton, if_pos rfl,
          hlengths, List.map_cons, List.findSome?_cons, Nat.add_comm 1, List.drop_succ_cons, hmany]
        simp
    · rw [hf.other t hmark, lengths_atLeastOnce_of_nil]
      · rfl
      · cases t with
        | nil => exact lengths_seq_fixed_nil _ _ _
        | cons c t =>
          rw [lengths_seq_fixed_singleton, if_neg]
          rintro rfl
          exact hmark rfl

/-- Of a row of labels the longest is tried first, by each of the functions that measure labels. -/
theorem head?_lengths_many_labels (hf : MeasuresLabels d p f) (before : Option Char) (t : Text) :
    ((many (seq (fixed [d]) (run p))).lengths before t).head? = some (f t) :=
  head?_lengths_many (consumes_label d p) (head?_lengths_labels hf before t)

end Labels

theorem measuresLabels_mail : MeasuresLabels '.' isMailHostChar mailLabelsLength where
  mark rest := by rw [mailLabelsLength]
  other t h := by
    unfold mailLabelsLength
    split
    · exact (h rfl).elim
    · rfl

theorem head?_lengths_address (before : Option Char) (t : Text) :
    (address.lengths before t).head? = addressLength? t := by
  -- neither run can give a character back: what must follow it, it has in its own class
  have hat : ∀ before c t, isMailboxChar c = true →
      (seq (fixed ['@']) (seq (run isMailHostChar) (atLeastOnce mailLabel))).lengths before (c :: t)
        = [] :=
    fun before _ t hc => lengths_seq_of_nil (lengths_fixed_cons_of_class (by decide) _ before hc t)
  have hdot : ∀ before c t, isMailHostChar c = true →
      (atLeastOnce mailLabel).lengths before (c :: t) = [] := by
    intro before c t hc
    apply lengths_atLeastOnce_of_nil
    exact lengths_seq_of_nil (lengths_fixed_cons_of_class (by decide) _ before hc t)
  -- so the mailbox is read as far as it goes, and so is the first label of the host
  rw [address, lengths_seq_run hat, addressLength?]
  dsimp only
  by_cases hmailbox : (t.takeWhile isMailboxChar).isEmpty = true
  · rw [if_pos hmailbox]
    split <;> simp [hmailbox]
  · rw [if_neg hmailbox, List.head?_map]
    cases hbehind : t.drop (t.takeWhile isMailboxChar).length with
    | nil => rw [lengths_seq_fixed_nil]; rfl
    | cons c rest =>
      rw [lengths_seq_fixed_singleton]
      by_cases hc : c = '@'
      · subst hc
        rw [if_pos rfl, List.head?_map, lengths_seq_run hdot]
        by_cases hlabel : (rest.takeWhile isMailHostChar).isEmpty = true
        · simp [hlabel]
        · rw [if_neg hlabel, List.head?_map, mailLabel, head?_lengths_labels measuresLabels_mail]
          by_cases hmore : mailLabelsLength (rest.drop (rest.takeWhile isMailHostChar).length) = 0
          · simp [hmore]
          · simp [hmore, hlabel, hmailbox]
            omega
      · rw [if_neg hc]
        simp [hc]

/-! ## Hosts -/

theorem consumes_run (p : Char → Bool) : Consumes (run p) := (consumes_one p).seq _

theorem lengths_hostLabel (before : Option Char) (t : Text) :
    hostLabel.lengths before t
      = if (t.takeWhile isHostChar).isEmpty then []
        else match t.drop (t.takeWhile isHostChar).length with
          | '.' :: _ => [(t.takeWhile isHostChar).length + 1]
          | _ => [] := by
  have hdot : ∀ before c t, isHostChar c = true → (fixed ['.']).lengths before (c :: t) = [] :=
    fun before _ t hc => lengths_fixed_cons_of_class (by decide) _ before hc t
  rw [hostLabel, lengths_seq_run hdot]
  split
  · rfl
  · split
    · next rest heq => simp [heq, lengths]
    · next hshape =>
      rw [lengths_fixed_of_absent, List.map_nil]
      cases hbehind : t.drop (t.takeWhile isHostChar).length with
      | nil => rfl
      | cons c rest =>
        have hne : c ≠ '.' := by
          rintro rfl
          exact hshape rest hbehind
        simp [List.isPrefixOf, hne.symm]

/-- The ways to take labels of a host are the ends that the reader goes through, in the same order.
Here all ways count and not the first alone, since a domain must follow. -/
theorem lengths_hostLabels (before : Option Char) (t : Text) :
    (atLeastOnce hostLabel).lengths before t = hostLengths t := by
  fun_induction hostLengths t generalizing before with
  | case1 t label hempty =>
    apply lengths_atLeastOnce_of_nil
    rw [lengths_hostLabel, if_pos hempty]
  | case2 t label hlabel rest hrest ih =>
    -- no other way to take the first label is left, so the rest is searched behind one place
    have hconsumes : Consumes hostLabel := (consumes_run _).seq _
    have hdrop : t.drop (label.length + 1) = rest := by
      rw [← List.drop_drop, hrest]
      rfl
    have hfirst : hostLabel.lengths before t = [label.length + 1] := by
      rw [lengths_hostLabel, if_neg hlabel, hrest]
      rfl
    rw [atLeastOnce, lengths_seq, hfirst, List.flatMap_singleton, hdrop, lengths_many hconsumes, ih,
      List.map_append]
    rfl
  | case3 t label hlabel hshape =>
    apply lengths_atLeastOnce_of_nil
    rw [lengths_hostLabel, if_neg hlabel]
    split
    · next rest heq => exact (hshape rest heq).elim
    · rfl

/-! A domain ends before no word character, and at most one of them does. -/

theorem charBefore_of_prefix (hw : w ≠ []) (h : w.isPrefixOf t = true) (before : Option Char) :
    charBefore before t w.length = w.getLast? := by
  obtain ⟨behind, rfl⟩ := List.isPrefixOf_iff_prefix.mp h
  rw [charBefore, List.take_left, List.getLast?_eq_some_getLast hw]
  rfl

theorem lengths_seq_boundary (b : Pattern) (before : Option Char) (t : Text) :
    (seq boundary b).lengths before t
      = if atBoundary before t.head? then b.lengths before t else [] := by
  rw [lengths_seq, lengths]
  split <;> simp

theorem head?_lengths_optional_path (before : Option Char) (t : Text) :
    ((optional path).lengths before t).head? = some (pathLength t) := by
  rw [lengths_optional, List.head?_append, path]
  cases t with
  | nil =>
    rw [lengths_seq_fixed_nil]
    rfl
  | cons c t =>
    rw [lengths_seq_fixed_singleton]
    by_cases hc : c = '/'
    · subst hc
      rw [if_pos rfl, List.head?_map, head?_lengths_tail, pathLength]
      by_cases htail : tailLength t = 0
      · simp [htail]
      · simp [htail]
    · rw [if_neg hc]
      simp [pathLength, hc]

/-- The first of several texts that stands here and ends a word. -/
theorem head?_lengths_oneOf {ws : List Text} (hws : ∀ w ∈ ws, w ≠ []) (before : Option Char)
    (t : Text) :
    ((seq (oneOf ws) (seq boundary (optional path))).lengths before t).head?
      = (ws.find? fun w => w.isPrefixOf t && atBoundary w.getLast? (t.drop w.length).head?).map
        fun w => w.length + pathLength (t.drop w.length) := by
  induction ws with
  | nil =>
    rw [oneOf, lengths_seq_of_nil (lengths_one_of_stop (by simp))]
    rfl
  | cons w ws ih =>
    have hrest := ih fun v hv => hws v (List.mem_cons_of_mem w hv)
    rw [head?_lengths_seq] at hrest ⊢
    rw [oneOf, lengths_either, List.findSome?_append, hrest, List.find?_cons]
    -- the first text counts only if it stands here and a word ends behind it
    by_cases hstands : w.isPrefixOf t = true
    · have hbefore := charBefore_of_prefix (hws w List.mem_cons_self) hstands before
      rw [lengths, if_pos hstands, List.findSome?_singleton, hbefore, lengths_seq_boundary, hstands,
        Bool.true_and]
      by_cases hends : atBoundary w.getLast? (t.drop w.length).head? = true
      · rw [if_pos hends, hends, head?_lengths_optional_path]
        rfl
      · rw [if_neg hends, Bool.not_eq_true _ |>.mp hends]
        rfl
    · rw [lengths, if_neg hstands, Bool.not_eq_true _ |>.mp hstands]
      rfl

theorem head?_lengths_host (before : Option Char) (t : Text) :
    (host.lengths before t).head? = hostLength? before t := by
  have hdomains : ∀ w ∈ topLevelDomains, w ≠ [] := by decide
  rw [host, lengths_seq_boundary, hostLength?]
  split
  · rw [head?_lengths_seq, lengths_hostLabels]
    congr 1
    funext n
    rw [head?_lengths_oneOf hdomains, topLevelLength?]
    cases topLevelDomains.find? fun w => w.isPrefixOf (t.drop n)
        && atBoundary w.getLast? ((t.drop n).drop w.length).head? with
    | none => rfl
    | some w => simp [List.drop_drop, Nat.add_assoc]
  · rfl

/-! ## Links -/

/-- **A link is the first try of its pattern.** -/
theorem head?_lengths_link (before : Option Char) (t : Text) :
    (link.lengths before t).head? = linkLength? before t := by
  rw [link, lengths_either, lengths_either, List.head?_append, List.head?_append,
    head?_lengths_opening_tail, head?_lengths_address, head?_lengths_host, linkLength?]
  simp only [Option.orElse_eq_orElse, Option.orElse_eq_or, Option.or_assoc]

theorem erase_nil (a : Pattern) (before : Option Char) : a.erase before [] = [] := by
  rw [erase]

/-- Taking out links by the reader is erasing by the pattern, also from the middle of a link on. The
reader counts the characters of a link that are left, where the search jumps over them at once. -/
theorem stripLinksFrom_eq_erase (before : Option Char) {linked : Nat} {t : Text}
    (h : linked ≤ t.length) :
    stripLinksFrom before linked t = link.erase (charBefore before t linked) (t.drop linked) := by
  induction t generalizing before linked with
  | nil =>
    obtain rfl := Nat.le_zero.mp h
    rw [List.drop_nil, erase_nil]
    rfl
  | cons c rest ih =>
    cases linked with
    | succ linked =>
      rw [charBefore_succ, List.drop_succ_cons, ← ih _ (Nat.le_of_succ_le_succ h)]
      rfl
    | zero =>
      rw [charBefore_zero, List.drop_zero, erase, head?_lengths_link]
      rcases linkLength?_cases before (c :: rest) with hnone | ⟨n, hlink⟩
      · rw [stripLinksFrom_of_none hnone, hnone, ih _ (Nat.zero_le _)]
        rfl
      · rw [stripLinksFrom_of_link hlink, hlink]
        exact ih _ (Nat.le_of_succ_le_succ (linkLength?_le _ hlink))

/-- **The text without its links** is the text without what the search for their pattern finds. -/
theorem stripLinks_eq_erase (t : Text) : stripLinks t = link.erase none t :=
  stripLinksFrom_eq_erase none (Nat.zero_le _)

end Pattern

end Orthography.Prose
