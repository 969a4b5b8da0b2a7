/-
Corrections: the known word nearest to a misspelled one.

One edit leaves out a character, exchanges two neighbours, puts another character in the place of
one, or puts one in. The candidates are the known words one edit away, or, where there are none and
two edits are allowed, those two edits away. Candidates that differ from the word in accents alone
come before all others; of those that remain the most frequent one wins.
-/
import Orthography.Spelling.Vocabulary
import Orthography.Unicode.Skeleton

set_option autoImplicit false

namespace Orthography.Spelling

/-! ## Edits -/

/-- The texts one edit away, characters put in being taken from `letters`. -/
def edits (letters : Text) : Text → List Text
  | [] => letters.map ([·])
  | c :: rest =>
    rest ::
      ((match rest with | d :: more => [d :: c :: more] | [] => []) ++
        letters.map (· :: rest) ++ letters.map (· :: c :: rest) ++
        (edits letters rest).map (c :: ·))

/-- Does one edit lead from the first text to the second? A text counts as no edit of itself. -/
def oneEdit : Text → Text → Bool
  | [], [_] => true
  | [_], [] => true
  | a :: as, b :: bs =>
    if a = b then oneEdit as bs
    else as = b :: bs || a :: as = bs || as = bs ||
      match as, bs with
      | a' :: as, b' :: bs => a' = b && b' = a && as = bs
      | _, _ => false
  | _, _ => false

/-! ## Candidates -/

namespace Vocabulary

/-- The words that can be proposed. -/
def proposable (v : Vocabulary) : List Text := v.words.filter (judges v.exempt v.longest)

def near (v : Vocabulary) (w : Text) : List Text := v.proposable.filter (oneEdit w)

/-- The words two edits away from a word, the text between them being one that can be a word. -/
def far (v : Vocabulary) (w : Text) : List Text :=
  let longest := v.longest
  let between := (edits v.letters w).filter (judges v.exempt longest)
  v.proposable.filter fun d => between.any (oneEdit · d)

/-- The words that come into question for a word that is not known. -/
def candidates (v : Vocabulary) (distance : Int) (w : Text) : List Text :=
  match v.near w with
  | [] => if distance = 1 then [] else v.far w
  | near => near

/-- The first of the words that no other one exceeds in count. -/
def mostFrequent (v : Vocabulary) (ws : List Text) : Option Text :=
  ws.foldl
    (fun best w =>
      match best with
      | some b => if v.count b < v.count w then some w else some b
      | none => some w)
    none

/-- The correction of a word in small letters. A known word, and what cannot be a word, has none. -/
def correction? (v : Vocabulary) (distance : Int) (w : Text) : Option Text :=
  if v.knows w || !judges v.exempt v.longest w then none
  else
    let all := v.candidates distance w
    let alike := all.filter fun d => Unicode.skeleton d = Unicode.skeleton w
    (v.mostFrequent (if alike.isEmpty then all else alike)).filter (· != w)

end Vocabulary

end Orthography.Spelling
