/-
What a command line says.

The words are acted on from the left. The first run of words that are no flags are the paths; other
such words, and flags that are unknown, are left over, and if nothing else is wrong with the line
they are what is wrong with it. A request for help is answered where it stands.
-/
import Orthography.CommandLine.Given
import Orthography.CommandLine.Word
import Orthography.Decimal.Numeral

set_option autoImplicit false

namespace Orthography.CommandLine

structure Arguments where
  paths : List Text := []
  config : Option Text := none
  language : Option (Given Text) := none
  knownWords : List (Given Text) := []
  minWordLength : Option (Given Int) := none
  marker : Option (Given Text) := none
  includeGlobs : List (Given Text) := []
  excludeGlobs : List (Given Text) := []
  noComments : Bool := false
  noTokens : Bool := false
  progress : Bool := false
  /-- How often more logging is asked for. -/
  verbosity : Nat := 0
  quiet : Bool := false
  deriving DecidableEq, Repr

/-- Why a command line says nothing. -/
inductive Halt where
  | help
  | refused (e : Refusal)
  deriving DecidableEq, Repr

namespace Arguments

/-! ## Flags -/

/-- The number that a flag is given. -/
def numberIn (f : Flag) : Given Text → Except Halt (Given Int)
  | .blank => .ok .blank
  | .value t =>
    match Decimal.Numeral.integer? t with
    | some n => .ok (.value n)
    | none => .error (.refused (.notInteger f t))

/-- A flag with its value. A blank name of a file is none. -/
def assign (a : Arguments) (f : Flag) (given : Given Text) : Except Halt Arguments :=
  match f with
  | .config => .ok { a with config := given.value? }
  | .language => .ok { a with language := some given }
  | .knownWord => .ok { a with knownWords := a.knownWords ++ [given] }
  | .minWordLength => (numberIn f given).map fun n => { a with minWordLength := some n }
  | .marker => .ok { a with marker := some given }
  | .includeGlob => .ok { a with includeGlobs := a.includeGlobs ++ [given] }
  | .excludeGlob => .ok { a with excludeGlobs := a.excludeGlobs ++ [given] }
  | .help | .noComments | .noTokens | .progress | .verbose | .quiet => .ok a

def raise (a : Arguments) (f : Flag) : Except Halt Arguments :=
  match f with
  | .help => .error .help
  | .noComments => .ok { a with noComments := true }
  | .noTokens => .ok { a with noTokens := true }
  | .progress => .ok { a with progress := true }
  | .verbose =>
    if a.quiet then .error (.refused (.conflict .verbose .quiet))
    else .ok { a with verbosity := a.verbosity + 1 }
  | .quiet =>
    if 0 < a.verbosity then .error (.refused (.conflict .quiet .verbose))
    else .ok { a with quiet := true }
  | .config | .language | .knownWord | .minWordLength | .marker | .includeGlob | .excludeGlob =>
    .ok a

/-- The flags in a bundle of short ones: `f`, and one for each letter that follows it. -/
def bundle (f : Flag) : Text → Except Refusal (List Flag)
  | [] => .ok [f]
  | c :: rest =>
    match Flag.ofSpelling? ['-', c] with
    | some next => (bundle next rest).map (f :: ·)
    | none => .error (.valueUnwanted f (c :: rest))

/-- The flags that a word stands for if the first of them takes no value. -/
def flagsIn (f : Flag) (short : Bool) : Option Text → Except Refusal (List Flag)
  | none => .ok [f]
  | some attached =>
    if short && !attached.isEmpty then bundle f attached else .error (.valueUnwanted f attached)

/-! ## Words -/

/-- Where the reading is with respect to the paths. -/
inductive Stage where
  | before
  | among
  | behind
  deriving DecidableEq, Repr

/-- The stage after a word that is no path. -/
def Stage.pass : Stage → Stage
  | .before => .before
  | .among | .behind => .behind

/-- The words acted on so far. -/
structure Reading where
  said : Arguments := {}
  stage : Stage := .before
  leftOver : List Text := []
  deriving Repr

/-- The reading with one more word that may be a path. -/
def Reading.addPath (r : Reading) (t : Text) : Reading :=
  match r.stage with
  | .before | .among =>
    { r with said := { r.said with paths := r.said.paths ++ [t] }, stage := .among }
  | .behind => { r with leftOver := r.leftOver ++ [t] }

/-- The reading with the separator, which is left over where there are no paths any more. -/
def Reading.addSeparator (r : Reading) : Reading :=
  match r.stage with
  | .before | .among => { r with stage := .among }
  | .behind => { r with leftOver := r.leftOver ++ [['-', '-']] }

def Reading.addUnknown (r : Reading) (t : Text) : Reading :=
  { r with leftOver := r.leftOver ++ [t], stage := r.stage.pass }

/-- The reading with a flag that says `said`. -/
def Reading.addFlag (r : Reading) (said : Except Halt Arguments) : Except Halt Reading :=
  said.map fun said => { r with said, stage := r.stage.pass }

def act (r : Reading) : List Word → Except Halt Reading
  | [] => .ok r
  | .plain t :: rest => act (r.addPath t) rest
  | .separator :: rest => act r.addSeparator rest
  | .unknown t :: rest => act (r.addUnknown t) rest
  | .flag f short attached :: rest =>
    if f.takesValue then
      match attached, rest with
      | some t, rest => do act (← r.addFlag (r.said.assign f (.ofAttached t))) rest
      | none, .plain t :: rest => do act (← r.addFlag (r.said.assign f (.value t))) rest
      | none, _ => .error (.refused (.valueMissing f))
    else do
      let flags ← (flagsIn f short attached).mapError .refused
      act (← r.addFlag (flags.foldlM raise r.said)) rest

def ofTexts (line : List Text) : Except Halt Arguments := do
  let words ← (Word.ofTexts line).mapError .refused
  let r ← act {} words
  if r.leftOver.isEmpty then return r.said else throw (.refused (.leftOver r.leftOver))

end Arguments

end Orthography.CommandLine
