/-
The files to check.

A path that leads to a file stands for that file, whatever its name. A path that leads to a
directory stands for the files below it that match one of the patterns to include and none of those
to exclude. Directories whose name begins with a dot are passed over.
-/
import Orthography.File.Glob
import Orthography.File.Store
import Orthography.Lint.Options

set_option autoImplicit false

namespace Orthography

/-- A path leads nowhere. -/
structure MissingPath where
  path : Path
  deriving DecidableEq, Repr

def MissingPath.message (e : MissingPath) : String :=
  "no such file or directory: " ++ e.path.render

namespace Collect

/-- Is one of the directories on the way to a file hidden? -/
def hidden (relative : List Text) : Bool := relative.dropLast.any (·.head? = some '.')

/-- Is a file wanted, by its name? -/
def included (globs : List Text) (relative : List Text) : Bool :=
  globs.any (globMatches · (relative.getLastD []))

/-- Is a file unwanted, by its path or its name? -/
def excluded (globs : List Text) (relative : List Text) : Bool :=
  globs.any fun glob =>
    globMatches glob (Path.join relative) || globMatches glob (relative.getLastD [])

/-- Is a file below a directory to be checked? -/
def keeps (options : Lint.Options) (relative : List Text) : Bool :=
  !hidden relative && included (options.includeGlobs.map String.toList) relative &&
    !excluded (options.excludeGlobs.map String.toList) relative

/-- The files that one path stands for. -/
def expand (store : Store) (options : Lint.Options) (p : Path) : Except MissingPath (List Path) :=
  if store.isFile p then .ok [p]
  else if store.isDir p then
    .ok (((store.filesBelow p).filter (keeps options)).map p.extend)
  else .error ⟨p⟩

end Collect

/-- The files that paths stand for, path by path. -/
def collectFiles (store : Store) (options : Lint.Options) (paths : List Path) :
    Except MissingPath (List Path) :=
  return (← paths.mapM (Collect.expand store options)).flatten

end Orthography
