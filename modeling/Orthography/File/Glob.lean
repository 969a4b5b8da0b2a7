/-
Name patterns: `*` for any run of characters, `?` for any one, `[…]` for one of a set.

Slashes and line ends are characters like any other. In a set a hyphen between two characters means
all from the first to the second, and an exclamation mark at the beginning turns the set around. A
range whose ends are in the wrong order is taken out, ends included. A bracket that is never closed
is an ordinary character, and so is a backslash.
-/
import Orthography.Text.Basic

set_option autoImplicit false

namespace Orthography.Glob

/-! ## Patterns -/

structure CharSet where
  negated : Bool := false
  /-- The ranges of characters, both ends included. -/
  ranges : List (Char × Char)
  deriving DecidableEq, Repr

def CharSet.holds (s : CharSet) (c : Char) : Bool :=
  (s.ranges.any fun (low, high) => low ≤ c && c ≤ high) != s.negated

inductive Piece where
  | run
  | any
  | exactly (c : Char)
  | oneOf (set : CharSet)
  deriving DecidableEq, Repr

def Piece.holds (p : Piece) (c : Char) : Bool :=
  match p with
  | .run | .any => true
  | .exactly d => c = d
  | .oneOf set => set.holds c

/-! ## Sets

The inside of a set is cut at the hyphens that make ranges, so that each cut joins the last
character of one chunk to the first of the next. Every chunk between two cuts has two characters or
more. -/

/-- The place of the first hyphen at or behind `start`. -/
def hyphenFrom? (inside : Text) (start : Nat) : Option Nat :=
  ((inside.drop start).findIdx? (· = '-')).map (start + ·)

/-- The chunks of a set's inside; `start` is the first place at which a hyphen can make a range. -/
def chunks (inside : Text) (start : Nat) : List Text :=
  match _h : hyphenFrom? inside start with
  | none => [inside]
  | some k =>
    let rest := inside.drop (k + 1)
    if rest.isEmpty then [inside]
    else inside.take k :: chunks rest 2
termination_by inside.length
decreasing_by
  unfold hyphenFrom? at _h
  simp only [Option.map_eq_some_iff] at _h
  obtain ⟨a, ha, rfl⟩ := _h
  have := (List.findIdx?_eq_some_iff_findIdx_eq.1 ha).1
  simp at this ⊢
  omega

/-- Takes out the ranges whose ends are in the wrong order, from the last one back. -/
def dropEmptyRanges : List Text → List Text
  | [] => []
  | chunk :: rest =>
    match chunk.getLast?, dropEmptyRanges rest with
    | some last, (first :: more) :: others =>
      if first < last then (chunk.dropLast ++ more) :: others
      else chunk :: (first :: more) :: others
    | _, others => chunk :: others

/-- A character of a set's inside, or the hyphen that makes a range. -/
inductive SetMark where
  | char (c : Char)
  /-- The hyphen between two chunks. -/
  | upTo
  deriving DecidableEq, Repr

/-- Chunks, joined again. -/
def marks (chunks : List Text) : List SetMark :=
  List.intercalate [.upTo] (chunks.map (·.map .char))

/-- The ranges that marks describe. A hyphen that has lost its first end stands for itself. -/
def rangesOf : List SetMark → List (Char × Char)
  | .char a :: .upTo :: .char b :: rest => (a, b) :: rangesOf rest
  | .char a :: rest => (a, a) :: rangesOf rest
  | .upTo :: rest => ('-', '-') :: rangesOf rest
  | [] => []

/-- The set with a given inside. An empty inside matches nothing, a mere exclamation mark
anything. -/
def setOf (inside : Text) : CharSet :=
  match marks (dropEmptyRanges (chunks inside (if inside.head? = some '!' then 2 else 1))) with
  | .char '!' :: rest => ⟨true, rangesOf rest⟩
  | all => ⟨false, rangesOf all⟩

/-- The inside of a set whose opening bracket has been read, and what follows its closing bracket.
A closing bracket at the beginning, or behind the exclamation mark there, is an ordinary
character. -/
def insideOf? (t : Text) : Option (Text × Text) :=
  let mark := if t.head? = some '!' then 1 else 0
  let lead := if (t.drop mark).head? = some ']' then mark + 1 else mark
  let n := lead + ((t.drop lead).takeWhile (· != ']')).length
  match t.drop n with
  | _ :: rest => some (t.take n, rest)
  | [] => none

/-- What follows the inside is shorter. -/
theorem length_insideOf? {t inside rest : Text} (h : insideOf? t = some (inside, rest)) :
    rest.length < t.length := by
  unfold insideOf? at h
  dsimp only at h
  split at h
  · next heq =>
    cases h
    have := congrArg List.length heq
    simp at this
    omega
  · cases h

/-! ## Reading and matching patterns -/

def parse (t : Text) : List Piece :=
  match t with
  | [] => []
  | c :: rest =>
    if c = '*' then .run :: parse rest
    else if c = '?' then .any :: parse rest
    else if c = '[' then
      match _h : insideOf? rest with
      | some (inside, more) => .oneOf (setOf inside) :: parse more
      | none => .exactly c :: parse rest
    else .exactly c :: parse rest
termination_by t.length
decreasing_by
  · simp
  · simp
  · have := length_insideOf? _h
    simp
    omega
  · simp
  · simp

/-- The endings of a text, the longest first. -/
def endings : Text → List Text
  | [] => [[]]
  | c :: rest => (c :: rest) :: endings rest

/-- Can the parts match all of one of the texts? The texts are what may be left to match, the
longest first, so a run leaves the endings of the first one. -/
def matchAny : List Piece → List Text → Bool
  | [], left => left.any (·.isEmpty)
  | .run :: pieces, left => matchAny pieces ((left.head?.map endings).getD [])
  | piece :: pieces, left =>
    matchAny pieces (left.filterMap fun
      | c :: rest => if piece.holds c then some rest else none
      | [] => none)

end Orthography.Glob

namespace Orthography

/-- Does a name match a pattern, all of it? -/
def globMatches (pattern name : Text) : Bool := Glob.matchAny (Glob.parse pattern) [name]

end Orthography
