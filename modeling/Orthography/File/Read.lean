/-
Reading a source file: its bytes, its encoding, its text.

Of what can go wrong most is contained, which is to say that the file counts as one that cannot be
read. What is not ends the whole run: a path that no file can have, a declared encoding that yields
no text at all, and one that fails otherwise than over the bytes.
-/
import Orthography.File.Encoding

set_option autoImplicit false

namespace Orthography

/-- Why a file is not read. -/
inductive ReadError where
  | store (e : StoreError)
  | declaration (e : DeclarationError)
  | decode (e : DecodeError)
  /-- The bytes are no text in an installed encoding. -/
  | codec (message : String)
  deriving DecidableEq, Repr

def ReadError.message (e : ReadError) (p : Path) : String :=
  match e with
  | .store e => e.message (Text.Quoted.ofString p.render)
  | .declaration e => e.message (Text.Quoted.ofString p.render)
  | .decode e => e.message
  | .codec message => message

/-- What ends the whole run. -/
inductive Escape where
  /-- No file can have such a name. -/
  | badName
  /-- The declared encoding yields no text. -/
  | notText (name : Text)
  /-- The declared encoding is the one in which nothing is a text. -/
  | undefined
  /-- Nothing says which byte of a unit comes first. -/
  | unordered (encoding : String)
  /-- An installed encoding fails otherwise than over the bytes. -/
  | codec (message : String)
  deriving DecidableEq, Repr

def Escape.message : Escape → String
  | .badName => StoreError.badName.message ""
  | .notText name =>
    "'" ++ String.ofList name ++
      "' is not a text encoding; use codecs.open() to handle arbitrary codecs"
  | .undefined => "undefined encoding"
  | .unordered encoding => encoding ++ " stream does not start with BOM"
  | .codec message => message

/-- The text with one line feed for every line end. -/
def unifyLineEnds : Text → Text
  | [] => []
  | '\r' :: '\n' :: rest => '\n' :: unifyLineEnds rest
  | c :: rest => (if c = '\r' then '\n' else c) :: unifyLineEnds rest

/-- The text of bytes in an encoding whose units have two bytes or four. A source has no byte order
mark of such an encoding, as its first line is UTF-8; so the order has to be named. Without a name
the bytes must still be good in the usual order for that to be noticed. -/
def decodeUnits (encoding : String) (read : ByteOrder → Except DecodeError Text) :
    Option ByteOrder → Except Escape (Except ReadError Text)
  | some order => .ok ((read order).mapError .decode)
  | none =>
    match read .little with
    | .ok _ => .error (.unordered encoding)
    | .error e => .ok (.error (.decode e))

def Encoding.decode (encoding : Encoding) (bytes : Bytes) : Except Escape (Except ReadError Text) :=
  match encoding with
  | .utf8 => .ok ((Utf8.decode bytes).mapError .decode)
  | .utf8Marked =>
    let text := if Utf8.mark.isPrefixOf bytes then bytes.drop 3 else bytes
    .ok ((Utf8.decode text).mapError .decode)
  | .latin1 => .ok (.ok (decodeLatin1 bytes))
  | .ascii => .ok ((decodeAscii bytes).mapError .decode)
  | .utf16 order => decodeUnits "UTF-16" (decodeUtf16 · 0 bytes) order
  | .utf32 order => decodeUnits "UTF-32" (decodeUtf32 · 0 bytes) order
  | .undefined => .error .undefined
  | .notText name => .error (.notText name)
  | .installed codec =>
    match codec bytes with
    | .ok t => .ok (.ok t)
    | .error (.undecodable message) => .ok (.error (.codec message))
    | .error (.failed message) => .error (.codec message)

/-- The text of a source file, or why there is none. -/
def readSource (store : Store) (p : Path) : Except Escape (Except ReadError Text) :=
  match store.read p with
  | .error .badName => .error .badName
  | .error e => .ok (.error (.store e))
  | .ok bytes =>
    match Encoding.ofSource store.codecs bytes with
    | .error e => .ok (.error (.declaration e))
    | .ok encoding => (encoding.decode bytes).map (·.map unifyLineEnds)

end Orthography
