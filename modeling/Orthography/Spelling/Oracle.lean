/-
Spelling oracles: they find misspelled words and propose corrections.

An oracle is a pair of functions and keeps nothing between questions. The usual one judges by a
vocabulary.
-/
import Orthography.Spelling.Correction
import Orthography.Spelling.Word
import Orthography.Text.MachineWord
import Orthography.Text.Span

set_option autoImplicit false

namespace Orthography.Spelling

/-- What finds misspelled words in a text. -/
structure Oracle where
  /-- The first misspelled word at or behind an offset. -/
  firstMisspelling : Text → Nat → Option Span
  /-- What to write instead of the word at a span. -/
  suggest : Text → Span → Option Text

/-! ## Where to start

Who asks may name any whole number as the place to start at. -/

/-- The place to start at is no machine word. -/
structure StartError where
  start : Int
  deriving DecidableEq, Repr

def StartError.message (_ : StartError) : String := "Python int too large to convert to C ssize_t"

/-- The offset to start at; a place before the text is its beginning. -/
def startOffset (start : Int) : Except StartError Nat :=
  if MachineWord.holds start then .ok start.toNat else .error ⟨start⟩

namespace Oracle

def firstMisspellingFrom (o : Oracle) (t : Text) (start : Int) : Except StartError (Option Span) :=
  (startOffset start).map (o.firstMisspelling t)

/-! ## Judging by a vocabulary -/

/-- The first word of a text, from `start` on, that has at least `minLength` characters and is not
accepted. -/
def firstUnknown (v : Vocabulary) (minLength : Int) (t : Text) (start : Nat) : Option Span :=
  ((wordsFrom t start).find? fun (_, w) => minLength ≤ w.length && !v.accepts w).map
    fun (offset, w) => Span.ofLength offset w.length

/-- The oracle that judges by a vocabulary. -/
def ofVocabulary (v : Vocabulary) (minLength distance : Int) : Oracle where
  firstMisspelling := firstUnknown v minLength
  suggest t span := v.correction? distance (Unicode.lower (span.cut t))

end Oracle

/-! ## Dictionaries -/

/-- The dictionaries at hand, by the name of their language. -/
abbrev Dictionaries := List (String × Vocabulary)

/-- Why there is no dictionary for a language. -/
inductive LanguageError where
  /-- None is at hand. -/
  | unknown (language : String)
  /-- None can be at hand, as no file can have such a name. -/
  | badName
  deriving DecidableEq, Repr

def LanguageError.message : LanguageError → String
  | .unknown language =>
    "The provided dictionary language (" ++ String.ofList (Unicode.lower language.toList) ++
      ") does not exist!"
  | .badName => "embedded null byte"

/-- The vocabulary of a language: its dictionary, the default words and the given ones. The empty
language has an empty dictionary. -/
def vocabularyFor (dictionaries : Dictionaries) (language : String) (knownWords : List Text) :
    Except LanguageError Vocabulary :=
  let build (dictionary : Vocabulary) := dictionary.addAll (defaultWords ++ knownWords)
  if language.isEmpty then .ok (build {})
  else
    match dictionaries.lookup (String.ofList (Unicode.lower language.toList)) with
    | some dictionary => .ok (build dictionary)
    | none =>
      .error (if language.toList.contains '\x00' then .badName else .unknown language)

end Orthography.Spelling
