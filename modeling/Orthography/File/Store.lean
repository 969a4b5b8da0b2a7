/-
A store of files: a tree of directories and plain files, as a value.

Every place is given by the names that lead to it from the root. The store lists its files, and
directories that may be empty; every beginning of a listed place is a directory too, and so are the
root and the directory one stands in. There relative paths begin. What bytes mean is in part up to
the system that holds them: with the files come the encodings that are installed there.
-/
import Orthography.File.Path

set_option autoImplicit false

namespace Orthography

abbrev Bytes := List UInt8

/-! ## Installed encodings -/

/-- Why an installed encoding makes no text of some bytes. -/
inductive CodecFault where
  /-- The bytes are no text in the encoding. -/
  | undecodable (message : String)
  /-- Whatever else goes wrong. -/
  | failed (message : String)
  deriving DecidableEq, Repr

/-- An installed encoding, by what it makes of bytes. -/
abbrev Codec := Bytes → Except CodecFault Text

/-! ## Stores -/

/-- Files and directories. -/
structure Store where
  /-- The files, by the names from the root down to each. -/
  files : List (List Text × Bytes) := []
  /-- Directories, by the names from the root down to each. -/
  dirs : List (List Text) := []
  /-- The directory one stands in, by the names from the root down to it. -/
  here : List Text := ["work".toList]
  /-- The encodings that are installed besides those of `Encoding.names`, by the names that
  declarations have for them. -/
  codecs : Text → Option Codec := fun _ => none

/-- Why there is nothing to read at a path. -/
inductive StoreError where
  | notFound
  /-- The path goes on below a file. -/
  | notDirectory
  | isDirectory
  /-- No file can have such a name. -/
  | badName
  deriving DecidableEq, Repr

namespace Store

/-- Where a path begins: at the root if it is absolute, else where one stands. -/
def start (s : Store) (p : Path) : List Text := if p.root.isEmpty then s.here else []

def addFile (s : Store) (p : Path) (bytes : Bytes) : Store :=
  { s with files := (s.start p ++ p.parts, bytes) :: s.files }

def addDir (s : Store) (p : Path) : Store :=
  { s with dirs := (s.start p ++ p.parts) :: s.dirs }

def contentAt? (s : Store) (place : List Text) : Option Bytes := s.files.lookup place

def hasDir (s : Store) (place : List Text) : Bool :=
  place.isPrefixOf s.here || s.dirs.any (place.isPrefixOf ·) ||
    s.files.any fun (file, _) => place.isPrefixOf file && place != file

/-! ## Finding a place -/

/-- The place that names lead to from the directory `here`. Above the root there is the root. -/
def resolveFrom (s : Store) (here : List Text) : List Text → Except StoreError (List Text)
  | [] => .ok here
  | name :: rest =>
    if name = ['.', '.'] then s.resolveFrom here.dropLast rest
    else
      let next := here ++ [name]
      if s.hasDir next then s.resolveFrom next rest
      else if (s.contentAt? next).isSome then
        if rest.isEmpty then .ok next else .error .notDirectory
      else .error .notFound

/-- The place that a path leads to. -/
def resolve (s : Store) (p : Path) : Except StoreError (List Text) :=
  if p.hasNull then .error .badName else s.resolveFrom (s.start p) p.parts

def isFile (s : Store) (p : Path) : Bool :=
  match s.resolve p with
  | .ok place => !s.hasDir place && (s.contentAt? place).isSome
  | .error _ => false

def isDir (s : Store) (p : Path) : Bool :=
  match s.resolve p with
  | .ok place => s.hasDir place
  | .error _ => false

/-! ## Reading -/

def read (s : Store) (p : Path) : Except StoreError Bytes := do
  let place ← s.resolve p
  if s.hasDir place then .error .isDirectory
  else match s.contentAt? place with
    | some bytes => .ok bytes
    | none => .error .notFound

/-- What is left of a path behind a beginning of it. -/
def behind? : List Text → List Text → Option (List Text)
  | [], rest => some rest
  | _ :: _, [] => none
  | a :: as, b :: bs => if a = b then behind? as bs else none

/-- The files below the directory that a path leads to, each by the names from there on, in the
order of those names, compared one after the other. -/
def filesBelow (s : Store) (p : Path) : List (List Text) :=
  match s.resolve p with
  | .ok place =>
    let files := s.files.filter fun (file, _) => !s.hasDir file
    let found := files.filterMap fun (file, _) => (behind? place file).filter (!·.isEmpty)
    found.eraseDups.mergeSort fun a b => !Path.before b a
  | .error _ => []

end Store

/-- The message of the system for a path that cannot be read; `path` is the path between quotes. -/
def StoreError.message (e : StoreError) (path : String) : String :=
  match e with
  | .notFound => "[Errno 2] No such file or directory: " ++ path
  | .notDirectory => "[Errno 20] Not a directory: " ++ path
  | .isDirectory => "[Errno 21] Is a directory: " ++ path
  | .badName => "embedded null byte"

end Orthography
