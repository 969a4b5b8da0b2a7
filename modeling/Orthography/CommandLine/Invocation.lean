/-
What a run is to do: the command line laid over the configuration, which lies over the defaults.
-/
import Orthography.CommandLine.Arguments
import Orthography.CommandLine.Draft
import Orthography.Config.Load
import Orthography.Log

set_option autoImplicit false

namespace Orthography.CommandLine

/-- What a run is to do. -/
structure Invocation where
  paths : List Path
  draft : Draft
  progress : Bool
  /-- How loud a record must be to be logged. -/
  logLevel : LogLevel
  deriving DecidableEq, Repr

namespace Arguments

/-- The file to read the settings from; an empty name is none. -/
def configPath (a : Arguments) : Option Path :=
  (a.config.filter fun name => !name.isEmpty).map Path.ofText

/-- What to check; where nothing is said, what is in the place one stands at. -/
def checkedPaths (a : Arguments) : List Path :=
  if a.paths.isEmpty then [{}] else a.paths.map Path.ofText

/-- Options with what the command line says about them. Words to accept and patterns of files to
leave out are added to those there are, patterns of files to find replace them. -/
def overlay (a : Arguments) (o : Lint.Options) : Draft :=
  let d := Draft.ofOptions o
  let said (ts : List (Given Text)) : List (Given String) := ts.map (·.map String.ofList)
  { suppressionMarker := (a.marker.map (·.map String.ofList)).getD d.suppressionMarker
    language := (a.language.map (·.map String.ofList)).getD d.language
    knownWords := d.knownWords ++ said a.knownWords
    minWordLength := a.minWordLength.getD d.minWordLength
    checkComments := d.checkComments && !a.noComments
    checkTokens := d.checkTokens && !a.noTokens
    includeGlobs := if a.includeGlobs.isEmpty then d.includeGlobs else said a.includeGlobs
    excludeGlobs := d.excludeGlobs ++ said a.excludeGlobs }

/-- How loud a record must be to be logged. -/
def logLevel (a : Arguments) : LogLevel :=
  if a.quiet then .error
  else match a.verbosity with
    | 0 => .warning
    | 1 => .info
    | _ => .debug

end Arguments

namespace Invocation

/-- What a run is to do that was started in a directory. -/
def ofArguments (store : Store) (directory : Path) (a : Arguments) :
    Except Config.ConfigFailure Invocation := do
  let settings ← Config.load store a.configPath directory
  let options ← (Config.overlay {} settings).mapError fun e => .refused (.setting e)
  return { paths := a.checkedPaths, draft := a.overlay options, progress := a.progress
           logLevel := a.logLevel }

end Invocation

end Orthography.CommandLine
