/-
Patterns, and the backtracking search for them.

At a place of a text a pattern is tried in a fixed order: a repetition goes on as long as it can and
gives back one round at a time, of two alternatives the first comes first, and what follows is tried
behind each try in turn. So what a pattern comes to at a place is the list of the lengths that it
could take there, in the order of the tries (`Pattern.lengths`). The search takes the first of them,
at the first place from the left that has one, and goes on behind it (`Pattern.found`,
`Pattern.erase`).

The links of a text are those of one pattern, `Pattern.link`.
-/
import Orthography.Prose.Links

set_option autoImplicit false

namespace Orthography.Prose

inductive Pattern where
  /-- One character of a class. -/
  | one (p : Char → Bool)
  | fixed (t : Text)
  /-- A word begins or ends here; no character is taken. -/
  | boundary
  | seq (a b : Pattern)
  /-- One of two, the first if it can be. -/
  | either (a b : Pattern)
  /-- Once if it can be. -/
  | optional (a : Pattern)
  /-- As often as it can be, and each time at least a character. -/
  | many (a : Pattern)

namespace Pattern

/-- The character before a place that lies `n` characters further on. -/
def charBefore (before : Option Char) (t : Text) (n : Nat) : Option Char :=
  (t.take n).getLast?.or before

/-- The lengths of a repetition, of which one round takes the lengths that `round` gives. -/
def repeated (round : Option Char → Text → List Nat) (before : Option Char) (t : Text) : List Nat :=
  ((round before t).flatMap fun n =>
    if 0 < n ∧ n ≤ t.length then (repeated round (charBefore before t n) (t.drop n)).map (n + ·)
    else []) ++ [0]
termination_by t.length
decreasing_by
  rw [List.length_drop]
  omega

/-- The lengths that the pattern could take at the beginning of a text, in the order in which they
are tried, `before` being the character before the text. -/
def lengths : Pattern → Option Char → Text → List Nat
  | one p, _, t => if t.head?.any p then [1] else []
  | fixed w, _, t => if w.isPrefixOf t then [w.length] else []
  | boundary, before, t => if atBoundary before t.head? then [0] else []
  | seq a b, before, t => (a.lengths before t).flatMap fun n =>
    (b.lengths (charBefore before t n) (t.drop n)).map (n + ·)
  | either a b, before, t => a.lengths before t ++ b.lengths before t
  | optional a, before, t => a.lengths before t ++ [0]
  | many a, before, t => repeated a.lengths before t

/-- The text without what the search finds, from the left, `before` being the character before the
text. -/
def erase (p : Pattern) (before : Option Char) (t : Text) : Text :=
  match t with
  | [] => []
  | c :: rest =>
    match (p.lengths before (c :: rest)).head? with
    | some (n + 1) => erase p (charBefore (some c) rest n) (rest.drop n)
    | _ => c :: erase p (some c) rest
termination_by t.length
decreasing_by
  · rw [List.length_drop, List.length_cons]
    omega
  · exact Nat.lt_succ_self _

/-- What the search finds in a text that begins at `offset`, each with its offset, `before` being
the character before the text. -/
def found (p : Pattern) (before : Option Char) (offset : Nat) (t : Text) : List (Nat × Text) :=
  match t with
  | [] => []
  | c :: rest =>
    match (p.lengths before (c :: rest)).head? with
    | some (n + 1) =>
      (offset, c :: rest.take n)
        :: found p (charBefore (some c) rest n) (offset + (n + 1)) (rest.drop n)
    | _ => found p (some c) (offset + 1) rest
termination_by t.length
decreasing_by
  · rw [List.length_drop, List.length_cons]
    omega
  · exact Nat.lt_succ_self _

/-! ## The pattern of links -/

/-- At least one of a class. -/
def run (p : Char → Bool) : Pattern := seq (one p) (many (one p))

/-- At least once. -/
def atLeastOnce (a : Pattern) : Pattern := seq a (many a)

/-- What follows an opening: no stop, and no closing punctuation at the end. -/
def tail : Pattern :=
  seq (many (one (!stopsLink ·))) (one fun c => !(stopsLink c || closesSentence c))

def opening : Pattern :=
  either (seq (one Char.isAlpha) (seq (many (one isSchemeChar)) (fixed "://".toList)))
    (either (fixed "mailto:".toList) (fixed "www.".toList))

/-- A label of a mail host with the dot before it. -/
def mailLabel : Pattern := seq (fixed ['.']) (run isMailHostChar)

def address : Pattern :=
  seq (run isMailboxChar) (seq (fixed ['@']) (seq (run isMailHostChar) (atLeastOnce mailLabel)))

/-- A label of a bare host with the dot behind it. -/
def hostLabel : Pattern := seq (run isHostChar) (fixed ['.'])

/-- One of several texts, an earlier one first. -/
def oneOf : List Text → Pattern
  | [] => one fun _ => false
  | w :: rest => either (fixed w) (oneOf rest)

def path : Pattern := seq (fixed ['/']) tail

def host : Pattern :=
  seq boundary (seq (atLeastOnce hostLabel) (seq (oneOf topLevelDomains)
    (seq boundary (optional path))))

def link : Pattern := either (seq opening tail) (either address host)

end Pattern

end Orthography.Prose
