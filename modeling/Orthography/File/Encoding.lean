/-
The encoding of a Python source file.

The first two lines can declare it in a comment; the second line counts only if the first one holds
nothing but blanks and a comment. A byte order mark declares UTF-8, and so does silence. Both lines
must be UTF-8 themselves, whatever they declare.
-/
import Orthography.File.Wide
import Orthography.Unicode.Word

set_option autoImplicit false

namespace Orthography

inductive Encoding where
  | utf8
  /-- UTF-8 behind a byte order mark. -/
  | utf8Marked
  | latin1
  | ascii
  /-- UTF-16, in a byte order that is named or left to a byte order mark. -/
  | utf16 (order : Option ByteOrder)
  /-- UTF-32, likewise. -/
  | utf32 (order : Option ByteOrder)
  /-- An encoding in which nothing is a text. -/
  | undefined
  /-- A transformation that has a name like an encoding but yields no text. -/
  | notText (name : Text)
  /-- An encoding that is installed. -/
  | installed (codec : Codec)

inductive DeclarationError where
  /-- One of the lines that can declare it is not UTF-8. -/
  | invalid
  | unknown (name : Text)
  /-- A byte order mark stands before the declaration of another encoding. -/
  | contradictsMark
  deriving DecidableEq, Repr

/-- The error in words; `file` is the file's name between quotes. -/
def DeclarationError.message (e : DeclarationError) (file : String) : String :=
  match e with
  | .invalid => "invalid or missing encoding declaration for " ++ file
  | .unknown name => "unknown encoding for " ++ file ++ ": " ++ String.ofList name
  | .contradictsMark => "encoding problem for " ++ file ++ ": utf-8"

namespace Encoding

/-! ## Names -/

/-- The name that a declaration stands for: UTF-8 and Latin-1 go by their usual names, which the
first twelve characters decide, and all other names stay as written. -/
def usualName (name : Text) : Text :=
  let short := (name.take 12).map fun c => if c = '_' then '-' else c.toLower
  let begins (base : String) : Bool :=
    short = base.toList || (base ++ "-").toList.isPrefixOf short
  if begins "utf-8" then "utf-8".toList
  else if ["latin-1", "iso-8859-1", "iso-latin-1"].any begins then "iso-8859-1".toList
  else name

/-- A name in small letters, with one underscore for every run of other marks than the point. -/
def plainName (t : Text) : Text :=
  let rec go (gap started : Bool) : Text → Text
    | [] => []
    | c :: rest =>
      if c.isAlphanum || c = '.' then
        (if gap && started then ['_', c.toLower] else [c.toLower]) ++ go false true rest
      else go true started rest
  go false false t

/-- Encodings by their proper names and their other names. -/
def names : List (Encoding × List String × List String) :=
  [(.utf8, ["utf_8"], ["cp65001", "u8", "utf", "utf8", "utf8_ucs2", "utf8_ucs4"]),
    (.utf8Marked, ["utf_8_sig"], []),
    (.latin1, ["latin_1", "charmap"],
      ["8859", "cp819", "csisolatin1", "ibm819", "iso8859", "iso8859_1", "iso_8859_1",
        "iso_8859_1_1987", "iso_ir_100", "l1", "latin", "latin1"]),
    (.ascii, ["ascii"],
      ["646", "ansi_x3.4_1968", "ansi_x3.4_1986", "ansi_x3_4_1968", "cp367", "csascii", "ibm367",
        "iso646_us", "iso_646.irv_1991", "iso_ir_6", "us", "us_ascii"]),
    (.utf16 none, ["utf_16"], ["u16", "utf16"]),
    (.utf16 (some .little), ["utf_16_le"], ["unicodelittleunmarked", "utf_16le"]),
    (.utf16 (some .big), ["utf_16_be"], ["unicodebigunmarked", "utf_16be"]),
    (.utf32 none, ["utf_32"], ["u32", "utf32"]),
    (.utf32 (some .little), ["utf_32_le"], ["utf_32le"]),
    (.utf32 (some .big), ["utf_32_be"], ["utf_32be"]),
    (.undefined, ["undefined"], []),
    (.notText [],
      ["rot_13", "hex_codec", "base64_codec", "bz2_codec", "zlib_codec", "quopri_codec",
        "uu_codec"],
      ["rot13", "hex", "base64", "base_64", "bz2", "zip", "zlib", "quopri", "quoted_printable",
        "quotedprintable", "uu"])]

/-- The encoding with a name, if there is one. A point in the name may stand for an underscore in
one of the other names. -/
def ofName? (codecs : Text → Option Codec) (name : Text) : Option Encoding :=
  let plain := String.ofList (plainName name)
  let pointless := String.ofList ((plainName name).map fun c => if c = '.' then '_' else c)
  let found := names.find? fun (_, proper, others) =>
    proper.contains plain || others.contains plain || others.contains pointless
  match found with
  | some (.notText _, _, _) => some (.notText name)
  | some (encoding, _, _) => some encoding
  | none => (codecs name).map .installed

/-! ## Declarations -/

def isNameChar (c : Char) : Bool := c.isAlphanum || c = '_' || c = '-' || c = '.'

def isLeadBlank (c : Char) : Bool := c = ' ' || c = '\t' || c = '\x0c'

/-- The name behind `coding:` or `coding=` at the first place where one stands; line ends are not
passed. -/
def nameIn? : Text → Option Text
  | [] => none
  | c :: rest =>
    let t := c :: rest
    let behind := t.drop 7
    let name := (behind.dropWhile fun c => c = ' ' || c = '\t').takeWhile isNameChar
    let opens := "coding:".toList.isPrefixOf t || "coding=".toList.isPrefixOf t
    if opens && !name.isEmpty then some name
    else if c = '\n' then none
    else nameIn? rest

/-- The name that a line declares. -/
def declared? (line : Text) : Option Text :=
  match line.dropWhile isLeadBlank with
  | '#' :: rest => nameIn? rest
  | _ => none

/-- Does a line hold nothing but blanks and perhaps a comment? -/
def saysNothing (line : Bytes) : Bool :=
  match line.dropWhile fun b => isLeadBlank (Char.ofNat b.toNat) with
  | [] => true
  | b :: _ => b.toNat = 35 || b.toNat = 13 || b.toNat = 10

/-- The encoding that a line declares, if it declares one. -/
def ofLine? (codecs : Text → Option Codec) (marked : Bool) (line : Bytes) :
    Except DeclarationError (Option Encoding) :=
  match Utf8.decode line with
  | .error _ => .error .invalid
  | .ok t =>
    match declared? t with
    | none => .ok none
    | some name =>
      let name := usualName name
      match ofName? codecs name with
      | none => .error (.unknown name)
      | some encoding =>
        if !marked then .ok (some encoding)
        else if name = "utf-8".toList then .ok (some .utf8Marked)
        else .error .contradictsMark

/-- The bytes up to the end of the first line, and those behind it. -/
def firstLine (bytes : Bytes) : Bytes × Bytes :=
  let line := bytes.takeWhile (·.toNat != 10)
  (bytes.take (line.length + 1), bytes.drop (line.length + 1))

/-- The encoding of a source. -/
def ofSource (codecs : Text → Option Codec) (bytes : Bytes) :
    Except DeclarationError Encoding := do
  let marked := Utf8.mark.isPrefixOf bytes
  let silent : Encoding := if marked then .utf8Marked else .utf8
  let (first, rest) := firstLine (if marked then bytes.drop 3 else bytes)
  if let some encoding ← ofLine? codecs marked first then return encoding
  if !saysNothing first then return silent
  let (second, _) := firstLine rest
  if let some encoding ← ofLine? codecs marked second then return encoding
  return silent

end Encoding

end Orthography
