/-
Decoding bytes to text: UTF-8, ASCII, Latin-1.

A character of UTF-8 is a lead byte and up to three more. The lead byte says how many there are and
which values the first of them may have, so that no character has two forms and surrogates have
none. Where decoding fails, the error covers the lead byte and those of its bytes that are still
good; if the data ends there, it covers all that is left.
-/
import Orthography.File.Store
import Orthography.Text.Quoted

set_option autoImplicit false

namespace Orthography

/-! ## Errors -/

inductive DecodeReason where
  | invalidStart
  /-- The byte behind the span does not go on with the character. -/
  | invalidContinuation
  | unexpectedEnd
  /-- The byte is above those of ASCII. -/
  | outOfRange
  /-- The data ends within a unit. -/
  | truncated
  /-- A low surrogate has no high one before it. -/
  | loneSurrogate
  /-- A high surrogate has no low one behind it. -/
  | brokenPair
  /-- A unit that holds a character by itself is a surrogate. -/
  | surrogate
  | tooLarge
  deriving DecidableEq, Repr

def DecodeReason.message : DecodeReason → String
  | .invalidStart => "invalid start byte"
  | .invalidContinuation => "invalid continuation byte"
  | .unexpectedEnd => "unexpected end of data"
  | .outOfRange => "ordinal not in range(128)"
  | .truncated => "truncated data"
  | .loneSurrogate => "illegal encoding"
  | .brokenPair => "illegal UTF-16 surrogate"
  | .surrogate => "code point in surrogate code point range(0xd800, 0xe000)"
  | .tooLarge => "code point not in range(0x110000)"

structure DecodeError where
  codec : String
  /-- The first of the bytes. -/
  byte : UInt8
  start : Nat
  /-- How many bytes there are. -/
  count : Nat
  reason : DecodeReason
  deriving DecidableEq, Repr

/-- The error in words. A single byte is given by its value too. -/
def DecodeError.message (e : DecodeError) : String :=
  let place :=
    if e.count = 1 then
      "byte 0x" ++ String.ofList (Text.Quoted.hexDigits 2 e.byte.toNat) ++ " in position " ++
        toString e.start
    else "bytes in position " ++ toString e.start ++ "-" ++ toString (e.start + e.count - 1)
  "'" ++ e.codec ++ "' codec can't decode " ++ place ++ ": " ++ e.reason.message

/-! ## UTF-8 -/

namespace Utf8

/-- What a lead byte announces. -/
structure Lead where
  /-- How many bytes follow. -/
  tails : Nat
  /-- The bits of the character that the lead byte holds. -/
  bits : Nat
  /-- The least value of the next byte. -/
  low : Nat := 0x80
  /-- The greatest value of the next byte. -/
  high : Nat := 0xBF
  deriving Repr

/-- What a byte announces as the first one of a character. -/
def lead? (b : Nat) : Option Lead :=
  if b < 0x80 then some { tails := 0, bits := b }
  else if b < 0xC2 then none
  else if b < 0xE0 then some { tails := 1, bits := b - 0xC0 }
  else if b = 0xE0 then some { tails := 2, bits := 0, low := 0xA0 }
  else if b = 0xED then some { tails := 2, bits := 0xD, high := 0x9F }
  else if b < 0xF0 then some { tails := 2, bits := b - 0xE0 }
  else if b = 0xF0 then some { tails := 3, bits := 0, low := 0x90 }
  else if b < 0xF4 then some { tails := 3, bits := b - 0xF0 }
  else if b = 0xF4 then some { tails := 3, bits := 4, high := 0x8F }
  else none

/-- The bytes that go on with a character, up to `n` of them, the first one within bounds. -/
def goodTails (n low high : Nat) : Bytes → List Nat
  | [] => []
  | b :: rest =>
    match n with
    | 0 => []
    | n + 1 =>
      if low ≤ b.toNat ∧ b.toNat ≤ high then b.toNat :: goodTails n 0x80 0xBF rest else []

def decodeFrom (place : Nat) (bytes : Bytes) : Except DecodeError Text :=
  match bytes with
  | [] => .ok []
  | b :: rest =>
    match lead? b.toNat with
    | none => .error ⟨"utf-8", b, place, 1, .invalidStart⟩
    | some lead =>
      let tails := goodTails lead.tails lead.low lead.high rest
      if tails.length = lead.tails then
        let code := tails.foldl (fun code tail => code * 64 + (tail - 0x80)) lead.bits
        (decodeFrom (place + 1 + tails.length) (rest.drop tails.length)).map (Char.ofNat code :: ·)
      else if tails.length = rest.length then
        .error ⟨"utf-8", b, place, 1 + tails.length, .unexpectedEnd⟩
      else .error ⟨"utf-8", b, place, 1 + tails.length, .invalidContinuation⟩
termination_by bytes.length
decreasing_by simp only [List.length_drop, List.length_cons]; omega

def decode (bytes : Bytes) : Except DecodeError Text := decodeFrom 0 bytes

def mark : Bytes := [0xEF, 0xBB, 0xBF]

end Utf8

/-! ## Encodings of one byte a character -/

/-- The text of bytes below 128. -/
def decodeAscii (bytes : Bytes) : Except DecodeError Text :=
  match bytes.zipIdx.find? fun (b, _) => 128 ≤ b.toNat with
  | some (b, place) => .error ⟨"ascii", b, place, 1, .outOfRange⟩
  | none => .ok (bytes.map fun b => Char.ofNat b.toNat)

/-- The text whose characters have the bytes as code points. -/
def decodeLatin1 (bytes : Bytes) : Text := bytes.map fun b => Char.ofNat b.toNat

end Orthography
