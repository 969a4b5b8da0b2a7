/-
The words of a command line, sorted into flags and others before any of them is acted on.

A word that begins with a hyphen is a flag, unless it is the hyphen alone, reads as a negative
number or holds a space; a known spelling is a flag in any case. Behind a word of two hyphens there
are no flags any more.
-/
import Orthography.CommandLine.Refusal
import Orthography.Unicode.Decimal

set_option autoImplicit false

namespace Orthography.CommandLine

inductive Word where
  /-- A path, or the value of the flag before it. -/
  | plain (t : Text)
  /-- The two hyphens behind which there are no flags. -/
  | separator
  /-- A flag with what is attached to it; `short` if it is in its short spelling. -/
  | flag (f : Flag) (short : Bool) (attached : Option Text)
  | unknown (t : Text)
  deriving DecidableEq, Repr

namespace Word

/-! ## Numbers -/

/-- Is every character a digit of some script? -/
def allDigits (t : Text) : Bool := t.all fun c => (Unicode.decimalValue? c).isSome

/-- Does a text read as a negative number? A line feed may end it. -/
def isNegativeNumber : Text → Bool
  | '-' :: digits =>
    let digits := if digits.getLast? = some '\n' then digits.dropLast else digits
    let whole := digits.takeWhile (· != '.')
    let part := digits.drop (whole.length + 1)
    allDigits whole && if whole.length < digits.length then !part.isEmpty && allDigits part
      else !whole.isEmpty
  | _ => false

/-! ## Flags -/

/-- A text up to its first equals sign, and what stands behind the sign if there is one. -/
def cutAtEquals (t : Text) : Text × Option Text :=
  let before := t.takeWhile (· != '=')
  (before, (t.drop before.length).tail?)

/-- A flag in the spelling `spelling`. -/
def spelled (spelling : Text) (f : Flag) (attached : Option Text) : Word :=
  .flag f (spelling.length = 2) attached

/-- What a word that is no spelling of a flag may mean, each meaning with the spelling it takes. A
word with two hyphens may be cut short; one with a single hyphen may have its value or more flags
attached. -/
def meanings (t : Text) : List (Text × Word) :=
  if ['-', '-'].isPrefixOf t then
    let (start, attached) := cutAtEquals t
    (Flag.beginningWith start).map fun (spelling, f) => (spelling, spelled spelling f attached)
  else
    match Flag.ofSpelling? (t.take 2) with
    | some f => [(t.take 2, spelled (t.take 2) f (some (t.drop 2)))]
    | none => []

/-- What a word that begins with a hyphen is. -/
def ofHyphened (t : Text) : Except Refusal Word :=
  match Flag.ofSpelling? t with
  | some f => .ok (spelled t f none)
  | none =>
    let (start, attached) := cutAtEquals t
    match Flag.ofSpelling? start with
    | some f => .ok (spelled start f attached)
    | none =>
      match meanings t with
      | [] => .ok (if isNegativeNumber t || t.contains ' ' then .plain t else .unknown t)
      | [(_, word)] => .ok word
      | several => .error (.ambiguous t (several.map (·.1)))

/-- What a word is, where there still may be flags. -/
def ofText : Text → Except Refusal Word
  | '-' :: c :: rest => ofHyphened ('-' :: c :: rest)
  | t => .ok (.plain t)

def ofTexts : List Text → Except Refusal (List Word)
  | [] => .ok []
  | t :: rest =>
    if t = ['-', '-'] then .ok (.separator :: rest.map .plain)
    else do
      let word ← ofText t
      return word :: (← ofTexts rest)

end Word

end Orthography.CommandLine
