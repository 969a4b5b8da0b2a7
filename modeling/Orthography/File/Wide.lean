/-
Decoding bytes to text: UTF-16 and UTF-32.

A unit of UTF-32 is four bytes and holds one character. A unit of UTF-16 is two bytes; most units
hold one character each, and a high surrogate with a low one behind it holds one of the characters
that do not fit into two bytes. Surrogates are no characters by themselves.
-/
import Orthography.File.Utf8

set_option autoImplicit false

namespace Orthography

/-! ## Units -/

/-- Which byte of a unit comes first. -/
inductive ByteOrder where
  /-- The one with the least weight. -/
  | little
  /-- The one with the greatest weight. -/
  | big
  deriving DecidableEq, Repr

namespace ByteOrder

def value (order : ByteOrder) (unit : Bytes) : Nat :=
  let digits := match order with
    | .little => unit.reverse
    | .big => unit
  digits.foldl (fun n b => n * 256 + b.toNat) 0

/-- The end of the name of an encoding with units in this order. -/
def suffix : ByteOrder → String
  | .little => "-le"
  | .big => "-be"

end ByteOrder

def isHighSurrogate (n : Nat) : Bool := 0xD800 ≤ n && n < 0xDC00

def isLowSurrogate (n : Nat) : Bool := 0xDC00 ≤ n && n < 0xE000

/-! ## UTF-16 -/

/-- The text of bytes that begin at a place, read as UTF-16. -/
def decodeUtf16 (order : ByteOrder) (place : Nat) : Bytes → Except DecodeError Text
  | [] => .ok []
  | [a] => .error ⟨"utf-16" ++ order.suffix, a, place, 1, .truncated⟩
  | a :: b :: rest =>
    let unit := order.value [a, b]
    let refuse (count : Nat) (reason : DecodeReason) : Except DecodeError Text :=
      .error ⟨"utf-16" ++ order.suffix, a, place, count, reason⟩
    if isHighSurrogate unit || isLowSurrogate unit then
      match rest with
      | c :: d :: rest =>
        let next := order.value [c, d]
        if isLowSurrogate unit then refuse 2 .loneSurrogate
        else if isLowSurrogate next then
          let code := 0x10000 + (unit - 0xD800) * 0x400 + (next - 0xDC00)
          (decodeUtf16 order (place + 4) rest).map (Char.ofNat code :: ·)
        else refuse 2 .brokenPair
      | rest => refuse (2 + rest.length) .unexpectedEnd
    else (decodeUtf16 order (place + 2) rest).map (Char.ofNat unit :: ·)

/-! ## UTF-32 -/

/-- The text of bytes that begin at a place, read as UTF-32. -/
def decodeUtf32 (order : ByteOrder) (place : Nat) : Bytes → Except DecodeError Text
  | [] => .ok []
  | a :: b :: c :: d :: rest =>
    let code := order.value [a, b, c, d]
    let refuse (reason : DecodeReason) : Except DecodeError Text :=
      .error ⟨"utf-32" ++ order.suffix, a, place, 4, reason⟩
    if isHighSurrogate code || isLowSurrogate code then refuse .surrogate
    else if 0x110000 ≤ code then refuse .tooLarge
    else (decodeUtf32 order (place + 4) rest).map (Char.ofNat code :: ·)
  | a :: rest => .error ⟨"utf-32" ++ order.suffix, a, place, 1 + rest.length, .truncated⟩

end Orthography
