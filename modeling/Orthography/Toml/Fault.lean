/-
What can be wrong with a TOML document, and where.

A fault is found at a place, given by what is left of the document there.
-/
import Orthography.Decimal.Digits
import Orthography.Text.LineIndex
import Orthography.Text.Quoted

set_option autoImplicit false

namespace Orthography.Toml

/-- A key with its parts, from the top down. -/
abbrev Key := List Text

inductive Cause where
  | invalidStatement
  | expectedLineEnd
  | expectedEquals
  | invalidKey
  | invalidValue
  /-- A value stands where a table is needed, or twice. -/
  | overwrites
  | declaredTwice (key : Key)
  /-- A table or array that was given in full is added to. -/
  | immutable (key : Key)
  /-- A dotted key goes through a table that was declared. -/
  | redefines (key : Key)
  | expectedBracket
  | expectedBrackets
  | unclosedArray
  | unclosedTable
  | duplicateKey (name : Text)
  | unterminated
  | expectedQuote (quotes : Text)
  | strayBackslash
  /-- A basic string holds a character that it must not hold. -/
  | illegalCharacter (c : Char)
  /-- A literal string or a comment holds such a character. -/
  | invalidCharacter (c : Char)
  | invalidHex
  /-- An escape gives no character. -/
  | notScalar
  | invalidDate
  | tooManyDigits (digits : Nat)
  deriving DecidableEq, Repr

def showKey (key : Key) : String :=
  let parts := key.map fun part => String.ofList (Text.Quoted.encode part)
  match parts with
  | [part] => "(" ++ part ++ ",)"
  | parts => "(" ++ String.intercalate ", " parts ++ ")"

/-- A text between quotes, as it is shown. -/
def showText (t : Text) : String := String.ofList (Text.Quoted.encode t)

def Cause.message : Cause → String
  | .invalidStatement => "Invalid statement"
  | .expectedLineEnd => "Expected newline or end of document after a statement"
  | .expectedEquals => "Expected '=' after a key in a key/value pair"
  | .invalidKey => "Invalid initial character for a key part"
  | .invalidValue => "Invalid value"
  | .overwrites => "Cannot overwrite a value"
  | .declaredTwice key => "Cannot declare " ++ showKey key ++ " twice"
  | .immutable key => "Cannot mutate immutable namespace " ++ showKey key
  | .redefines key => "Cannot redefine namespace " ++ showKey key
  | .expectedBracket => "Expected ']' at the end of a table declaration"
  | .expectedBrackets => "Expected ']]' at the end of an array declaration"
  | .unclosedArray => "Unclosed array"
  | .unclosedTable => "Unclosed inline table"
  | .duplicateKey name => "Duplicate inline table key " ++ showText name
  | .unterminated => "Unterminated string"
  | .expectedQuote quotes => "Expected " ++ showText quotes
  | .strayBackslash => "Unescaped '\\' in a string"
  | .illegalCharacter c => "Illegal character " ++ showText [c]
  | .invalidCharacter c => "Found invalid character " ++ showText [c]
  | .invalidHex => "Invalid hex value"
  | .notScalar => "Escaped character is not a Unicode scalar value"
  | .invalidDate => "Invalid date or datetime"
  | .tooManyDigits digits => Decimal.tooManyDigitsMessage digits

/-- A fault: its cause, and what is left of the document where it is found. -/
structure Fault where
  cause : Cause
  rest : Text
  deriving Repr

/-- A place in words: its line and column, or the end of the document. -/
def placeMessage (document rest : Text) : String :=
  match rest with
  | [] => "end of document"
  | _ =>
    match (LineIndex.ofText document).lineColumn? (document.length - rest.length : Nat) with
    | some p => "line " ++ toString p.line ++ ", column " ++ toString p.column
    | none => "end of document"

def Fault.message (f : Fault) (document : Text) : String :=
  f.cause.message ++ " (at " ++ placeMessage document f.rest ++ ")"

/-- A fault at the beginning of what is left. -/
def fault {α : Type} (cause : Cause) (rest : Text) : Except Fault α := .error ⟨cause, rest⟩

end Orthography.Toml
