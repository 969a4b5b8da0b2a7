/-
Settings: options given by name.

Each setting has a name and a type. Settings are laid over options in the order in which they come,
and the first one that is unknown or of the wrong type is refused. A truth value is no number.
-/
import Orthography.Lint.Options
import Orthography.Text.Quoted
import Orthography.Toml.Value

set_option autoImplicit false

namespace Orthography.Config

open Toml

/-! ## The settings -/

/-- What can be set. -/
inductive Setting where
  | suppressionMarker
  | language
  | knownWords
  | minWordLength
  | checkComments
  | checkTokens
  | includeGlobs
  | excludeGlobs
  deriving DecidableEq, Repr

namespace Setting

def all : List Setting :=
  [.suppressionMarker, .language, .knownWords, .minWordLength, .checkComments, .checkTokens,
    .includeGlobs, .excludeGlobs]

def key : Setting → String
  | .suppressionMarker => "suppression-marker"
  | .language => "language"
  | .knownWords => "known-words"
  | .minWordLength => "min-word-length"
  | .checkComments => "check-comments"
  | .checkTokens => "check-tokens"
  | .includeGlobs => "include"
  | .excludeGlobs => "exclude"

def ofKey? (name : Text) : Option Setting := all.find? fun s => s.key.toList == name

def typeName : Setting → String
  | .suppressionMarker | .language => "str"
  | .minWordLength => "int"
  | .checkComments | .checkTokens => "bool"
  | .knownWords | .includeGlobs | .excludeGlobs => "list"

end Setting

/-! ## Refusals -/

inductive SettingError where
  | unknownKey (key : Text)
  | wrongType (key : Text) (expected found : String)
  /-- The value is a list, but not of texts. -/
  | notTexts (key : Text)
  deriving DecidableEq, Repr

def SettingError.message (e : SettingError) : String :=
  let shown (key : Text) : String := String.ofList (Text.Quoted.encode key)
  match e with
  | .unknownKey key => "unknown config key: " ++ shown key
  | .wrongType key expected found =>
    shown key ++ " must be of type " ++ expected ++ ", got " ++ found
  | .notTexts key => shown key ++ " must be a list of strings"

/-! ## Laying settings over options -/

/-- The texts of a list of values, if all of them are texts. -/
def textsOf? (items : List Value) : Option (List String) :=
  items.mapM fun
    | .text t => some (String.ofList t)
    | _ => none

namespace Setting

/-- The options with a value for a setting. -/
def assign (s : Setting) (value : Value) (o : Lint.Options) : Except SettingError Lint.Options :=
  let key := s.key.toList
  match s, value with
  | .suppressionMarker, .text t => .ok { o with suppressionMarker := String.ofList t }
  | .language, .text t => .ok { o with language := String.ofList t }
  | .minWordLength, .integer n => .ok { o with minWordLength := n }
  | .checkComments, .boolean b => .ok { o with checkComments := b }
  | .checkTokens, .boolean b => .ok { o with checkTokens := b }
  | .knownWords, .array items =>
    match textsOf? items with
    | some words => .ok { o with knownWords := words }
    | none => .error (.notTexts key)
  | .includeGlobs, .array items =>
    match textsOf? items with
    | some globs => .ok { o with includeGlobs := globs }
    | none => .error (.notTexts key)
  | .excludeGlobs, .array items =>
    match textsOf? items with
    | some globs => .ok { o with excludeGlobs := globs }
    | none => .error (.notTexts key)
  | s, value => .error (.wrongType key s.typeName value.typeName)

end Setting

/-- The options with one setting by its name. -/
def overlayOne (o : Lint.Options) (entry : Text × Value) : Except SettingError Lint.Options :=
  match Setting.ofKey? entry.1 with
  | some setting => setting.assign entry.2 o
  | none => .error (.unknownKey entry.1)

/-- The options with all settings of a table. -/
def overlay (o : Lint.Options) (settings : Table) : Except SettingError Lint.Options :=
  settings.foldlM overlayOne o

end Orthography.Config
