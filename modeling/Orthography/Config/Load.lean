/-
Finding and reading the configuration.

A file that is named must be there. If none is named, the tool's own file is looked for first; if
there is none, the tool's table in the project file counts. Without either nothing is set.
-/
import Orthography.Config.Settings
import Orthography.File.Utf8
import Orthography.Toml.Document

set_option autoImplicit false

namespace Orthography.Config

open Toml

/-! ## Refusals -/

inductive ConfigError where
  | missing (path : Path)
  | malformed (path : Path) (document : Text) (fault : Fault)
  /-- What stands where the tool's table should is no table. -/
  | notATable (path : Path)
  | setting (e : SettingError)
  deriving Repr

def ConfigError.message : ConfigError → String
  | .missing path => "config file not found: " ++ path.render
  | .malformed path document fault =>
    "invalid TOML in " ++ path.render ++ ": " ++ fault.message document
  | .notATable path => "[tool.typolint] in " ++ path.render ++ " must be a table"
  | .setting e => e.message

/-- What is wrong with a configuration beyond what is refused in good order. -/
inductive ConfigCrash where
  | undecodable (e : DecodeError)
  | tooManyDigits (digits : Nat)
  /-- The table of tools is a value of another type. -/
  | toolNotTable (typeName : String)
  deriving Repr

def ConfigCrash.message : ConfigCrash → String
  | .undecodable e => e.message
  | .tooManyDigits digits => Decimal.tooManyDigitsMessage digits
  | .toolNotTable typeName => "'" ++ typeName ++ "' object has no attribute 'get'"

inductive ConfigFailure where
  | refused (e : ConfigError)
  /-- Reading it ends the run. -/
  | crashed (e : ConfigCrash)
  deriving Repr

/-! ## Reading a file -/

def ownFile : Text := "typolint.toml".toList

def projectFile : Text := "pyproject.toml".toList

/-- The tool's table in the table of a project file. -/
def toolTable (path : Path) (document : Table) : Except ConfigFailure Table :=
  match Table.get? document "tool".toList with
  | none => .ok []
  | some (.table tools) =>
    match Table.get? tools "typolint".toList with
    | none => .ok []
    | some (.table settings) => .ok settings
    | some _ => .error (.refused (.notATable path))
  | some other => .error (.crashed (.toolNotTable other.fullTypeName))

/-- The settings in the bytes of a file. -/
def readSettings (path : Path) (bytes : Bytes) : Except ConfigFailure Table :=
  match Utf8.decode bytes with
  | .error e => .error (.crashed (.undecodable e))
  | .ok t =>
    let document := joinLineEnds t
    match readTable document with
    | .error ⟨.tooManyDigits digits, _⟩ => .error (.crashed (.tooManyDigits digits))
    | .error fault => .error (.refused (.malformed path document fault))
    | .ok table => if path.name = projectFile then toolTable path table else .ok table

/-- The settings in the file at a path, if there is a file. -/
def settingsAt? (store : Store) (path : Path) : Option (Except ConfigFailure Table) :=
  if store.isFile path then
    match store.read path with
    | .ok bytes => some (readSettings path bytes)
    | .error _ => none
  else none

/-! ## Finding the file -/

/-- The settings of a named file, or of the files in a directory. -/
def load (store : Store) (named : Option Path) (directory : Path) : Except ConfigFailure Table :=
  match named with
  | some path => (settingsAt? store path).getD (.error (.refused (.missing path)))
  | none =>
    match settingsAt? store (directory.extend [ownFile]) with
    | some settings => settings
    | none => (settingsAt? store (directory.extend [projectFile])).getD (.ok [])

end Orthography.Config
