/-
What is checked, and by which words.
-/
import Orthography.Spelling.Suppression

set_option autoImplicit false

namespace Orthography.Lint

/-- The choices a user has. -/
structure Options where
  /-- A comment that holds this text switches checking off for its token and all below. -/
  suppressionMarker : String := Spelling.defaultMarker
  language : String := "en"
  knownWords : List String := []
  /-- Shorter words are not checked. -/
  minWordLength : Int := 2
  checkComments : Bool := true
  checkTokens : Bool := true
  /-- Files whose name matches one of these patterns are found in directories. -/
  includeGlobs : List String := ["*.py"]
  /-- Files whose name or path matches one of these patterns are left out. -/
  excludeGlobs : List String := []
  deriving DecidableEq, Repr

end Orthography.Lint
