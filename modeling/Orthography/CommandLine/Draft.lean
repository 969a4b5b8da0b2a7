/-
Options in which some values may be blank.

A draft has everything that options have. As long as nothing that is blank comes into play, it does
what the options do that have any other value in its place; `Draft.filled` picks such options. The
rest of this file says when a blank does come into play.
-/
import Orthography.CommandLine.Given
import Orthography.File.Collect
import Orthography.Lint.Visitor

set_option autoImplicit false

namespace Orthography.CommandLine

/-- Options in which some values may be blank. -/
structure Draft where
  suppressionMarker : Given String
  language : Given String
  knownWords : List (Given String)
  minWordLength : Given Int
  checkComments : Bool
  checkTokens : Bool
  includeGlobs : List (Given String)
  excludeGlobs : List (Given String)
  deriving DecidableEq, Repr

namespace Draft

/-! ## Drafts and options -/

def ofOptions (o : Lint.Options) : Draft where
  suppressionMarker := .value o.suppressionMarker
  language := .value o.language
  knownWords := o.knownWords.map .value
  minWordLength := .value o.minWordLength
  checkComments := o.checkComments
  checkTokens := o.checkTokens
  includeGlobs := o.includeGlobs.map .value
  excludeGlobs := o.excludeGlobs.map .value

/-- Options for a draft. A blank language is the empty one. Of the patterns those count that are
reached before a blank one. -/
def filled (d : Draft) : Lint.Options where
  suppressionMarker := d.suppressionMarker.valueOr ""
  language := d.language.valueOr ""
  knownWords := Given.beforeBlank d.knownWords
  minWordLength := d.minWordLength.valueOr 0
  checkComments := d.checkComments
  checkTokens := d.checkTokens
  includeGlobs := Given.beforeBlank d.includeGlobs
  excludeGlobs := Given.beforeBlank d.excludeGlobs

/-! ## Where a blank comes into play -/

/-- Is a blank reached in finding out whether a file below a directory is to be checked? Patterns
are tried in their order up to the first that matches. -/
def stumblesOver (d : Draft) (relative : List Text) : Bool :=
  let texts (globs : List String) : List Text := globs.map String.toList
  !Collect.hidden relative &&
    if Collect.included (texts d.filled.includeGlobs) relative then
      d.excludeGlobs.any Given.isBlank &&
        !Collect.excluded (texts d.filled.excludeGlobs) relative
    else d.includeGlobs.any Given.isBlank

/-- Is a blank reached in finding the files that paths stand for? Behind a path that leads nowhere
none is looked for. -/
def stumblesIn (d : Draft) (store : Store) (paths : List Path) : Bool :=
  (paths.takeWhile fun p => store.isFile p || store.isDir p).any fun p =>
    !store.isFile p && (store.filesBelow p).any d.stumblesOver

/-- The blank that an act needs. The oracle compares lengths as soon as there is a word. -/
def needIn? (d : Draft) : Lint.Act → Option BlankUse
  | .seek _ => if d.suppressionMarker.isBlank then some .marker else none
  | .query t =>
    if d.minWordLength.isBlank && !(Spelling.wordsFrom t 0).isEmpty then some .length else none
  | .log _ | .report _ => none

/-- The first blank that is needed while a source is checked. -/
def need? (d : Draft) (acts : List Lint.Act) : Option BlankUse := acts.findSome? d.needIn?

end Draft

end Orthography.CommandLine
