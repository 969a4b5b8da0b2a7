/-
What is wrong with a command line, and the two texts that explain how one is written.
-/
import Orthography.CommandLine.Flag
import Orthography.Text.Quoted

set_option autoImplicit false

namespace Orthography.CommandLine

/-! ## Refusals -/

inductive Refusal where
  /-- A flag is cut so short that several begin alike. -/
  | ambiguous (word : Text) (candidates : List Text)
  | valueMissing (f : Flag)
  /-- A flag that takes no value has one. -/
  | valueUnwanted (f : Flag) (value : Text)
  | notInteger (f : Flag) (value : Text)
  /-- Two flags exclude each other; the one that came second is named first. -/
  | conflict (f earlier : Flag)
  | leftOver (words : List Text)
  deriving DecidableEq, Repr

def Refusal.message (e : Refusal) : String :=
  let about (f : Flag) (what : String) : String := "argument " ++ f.name ++ ": " ++ what
  let shown (t : Text) : String := String.ofList (Text.Quoted.encode t)
  match e with
  | .ambiguous word candidates =>
    "ambiguous option: " ++ String.ofList word ++ " could match " ++
      ", ".intercalate (candidates.map String.ofList)
  | .valueMissing f => about f "expected one argument"
  | .valueUnwanted f value => about f ("ignored explicit argument " ++ shown value)
  | .notInteger f value => about f ("invalid int value: " ++ shown value)
  | .conflict f earlier => about f ("not allowed with argument " ++ earlier.name)
  | .leftOver words => "unrecognized arguments: " ++ " ".intercalate (words.map String.ofList)

/-! ## Explanations -/

/-- Lines, each with its end. -/
def ofLines (lines : List String) : String := String.join (lines.map (· ++ "\n"))

def usage : String := ofLines [
  "usage: typolint [-h] [--config FILE] [--language LANGUAGE] [--known-word WORD]",
  "                [--min-word-length N] [--marker MARKER] [--include GLOB]",
  "                [--exclude GLOB] [--no-comments] [--no-tokens] [--progress]",
  "                [-v | -q]",
  "                [paths ...]"]

/-- How a command line is written, and what each word of it means. -/
def help : String := usage ++ ofLines [
  "",
  "Find misspelled words in Python comments, strings and identifiers",
  "",
  "positional arguments:",
  "  paths                Files or directories to check (default: .)",
  "",
  "options:",
  "  -h, --help           show this help message and exit",
  "  --config FILE        Config file (default: typolint.toml or [tool.typolint]",
  "                       in ./pyproject.toml)",
  "  --language LANGUAGE  Dictionary language (default: en)",
  "  --known-word WORD    Extra word to accept (repeatable)",
  "  --min-word-length N  Ignore words shorter than N",
  "  --marker MARKER      Suppression marker (default: spellcheck:disable:this)",
  "  --include GLOB       File name glob used when walking directories",
  "                       (repeatable, default: *.py)",
  "  --exclude GLOB       Path glob to skip (repeatable)",
  "  --no-comments        Do not check comments",
  "  --no-tokens          Do not check strings and identifiers",
  "  --progress           Show a progress bar on stderr",
  "  -v, --verbose        More logging (repeatable)",
  "  -q, --quiet          Only log errors"]

/-- What is said of a refused command line. -/
def Refusal.explanation (e : Refusal) : String := usage ++ "typolint: error: " ++ e.message ++ "\n"

end Orthography.CommandLine
