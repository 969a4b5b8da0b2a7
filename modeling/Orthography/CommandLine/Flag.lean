/-
Flags: what a command line can say beside paths.

A flag has one or two spellings, a short one of a single letter and a long one, and either takes a
value or stands alone. A long spelling may be cut short, as long as no other flag begins alike.
-/
import Orthography.Text.Basic

set_option autoImplicit false

namespace Orthography.CommandLine

/-- What can be said beside paths. -/
inductive Flag where
  | help
  | config
  | language
  | knownWord
  | minWordLength
  | marker
  | includeGlob
  | excludeGlob
  | noComments
  | noTokens
  | progress
  | verbose
  | quiet
  deriving DecidableEq, Repr

namespace Flag

/-- All flags, in the order in which they are listed. -/
def all : List Flag :=
  [.help, .config, .language, .knownWord, .minWordLength, .marker, .includeGlob, .excludeGlob,
    .noComments, .noTokens, .progress, .verbose, .quiet]

/-- The spellings of a flag, the short one first. -/
def spellings : Flag → List String
  | .help => ["-h", "--help"]
  | .config => ["--config"]
  | .language => ["--language"]
  | .knownWord => ["--known-word"]
  | .minWordLength => ["--min-word-length"]
  | .marker => ["--marker"]
  | .includeGlob => ["--include"]
  | .excludeGlob => ["--exclude"]
  | .noComments => ["--no-comments"]
  | .noTokens => ["--no-tokens"]
  | .progress => ["--progress"]
  | .verbose => ["-v", "--verbose"]
  | .quiet => ["-q", "--quiet"]

/-- The flag as messages name it. -/
def name (f : Flag) : String := "/".intercalate f.spellings

def takesValue : Flag → Bool
  | .config | .language | .knownWord | .minWordLength | .marker | .includeGlob | .excludeGlob =>
    true
  | .help | .noComments | .noTokens | .progress | .verbose | .quiet => false

def table : List (Text × Flag) :=
  all.flatMap fun f => f.spellings.map fun spelling => (spelling.toList, f)

def ofSpelling? (t : Text) : Option Flag := table.lookup t

/-- The spellings that begin with a text, each with its flag. -/
def beginningWith (t : Text) : List (Text × Flag) := table.filter fun row => t.isPrefixOf row.1

end Flag

end Orthography.CommandLine
