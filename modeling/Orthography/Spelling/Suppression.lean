/-
Comments that switch checking off.
-/
import Orthography.Text.Basic
import Orthography.Unicode.Blank

set_option autoImplicit false

namespace Orthography.Spelling

/-- The marker that is looked for unless another one is chosen. -/
def defaultMarker : String := "spellcheck:disable:this"

/-- Does the comment hold the marker? Blanks around the comment do not count. -/
def isSuppressed (comment marker : Text) : Bool :=
  marker.holds (comment.trim Unicode.isBlank)

end Orthography.Spelling
