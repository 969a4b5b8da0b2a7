/-
Vocabularies: the words that are spelled right, and how often each one was given.

A vocabulary keeps words in small letters, in the order in which they came. It judges only what can
be a word: no lone punctuation mark, nothing much longer than its longest word, no number. Three
words of letters read as numbers all the same, and which of them it takes for words is up to the
vocabulary.
-/
import Orthography.Decimal.Numeral
import Orthography.Unicode.Lower

set_option autoImplicit false

namespace Orthography.Spelling

open Decimal Unicode

/-- Words in small letters with their counts. -/
structure Vocabulary where
  /-- The words, none twice, in the order in which they first came. -/
  entries : List (Text × Nat) := []
  /-- The words in small letters that are judged although they read as numbers. -/
  exempt : List Text := Numeral.names
  deriving Repr

namespace Vocabulary

/-- One more occurrence of a word that is in small letters. -/
def bump (w : Text) : List (Text × Nat) → List (Text × Nat)
  | [] => [(w, 1)]
  | (other, n) :: rest => if other = w then (other, n + 1) :: rest else (other, n) :: bump w rest

def add (v : Vocabulary) (w : Text) : Vocabulary :=
  { v with entries := bump (lower w) v.entries }

def addAll (v : Vocabulary) (ws : List Text) : Vocabulary := ws.foldl add v

def words (v : Vocabulary) : List Text := v.entries.map (·.1)

def holds (v : Vocabulary) (w : Text) : Bool := v.words.contains w

def count (v : Vocabulary) (w : Text) : Nat := ((v.entries.find? (·.1 = w)).map (·.2)).getD 0

def longest (v : Vocabulary) : Nat := v.words.foldl (fun n w => max n w.length) 0

/-- The characters of all words. -/
def letters (v : Vocabulary) : Text := v.words.flatten.eraseDups

/-- Can a text be a word, where the longest word has `longest` characters and the words of `exempt`
are let through although they read as numbers? -/
def judges (exempt : List Text) (longest : Nat) (w : Text) : Bool :=
  if w.length = 1 && w.all Text.isPunctuation then false
  else if longest + 3 < w.length then false
  else exempt.contains (lower w) || !Numeral.accepts w

/-- Is a word, in capitals or not, spelled right? -/
def knows (v : Vocabulary) (w : Text) : Bool :=
  v.holds (lower w) && judges v.exempt v.longest (lower w)

/-- Is a word spelled right, or what stands before its first apostrophe? -/
def accepts (v : Vocabulary) (w : Text) : Bool :=
  v.knows w || ('\'' ∈ w && v.knows (w.takeWhile (· != '\'')))

end Vocabulary

/-- Words that stand in almost every program and in few other texts. -/
def defaultWords : List Text :=
  ["args", "async", "bool", "config", "dict", "enum", "init", "kwargs", "len", "param", "params",
    "repr", "stderr", "stdin", "stdout", "str", "tuple", "utf"].map String.toList

end Orthography.Spelling
