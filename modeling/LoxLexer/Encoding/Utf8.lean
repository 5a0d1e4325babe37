import LoxLexer.Encoding.Malformed

/-!
# UTF-8

`decode` reads strict UTF-8: no overlong forms, no surrogates, nothing above
U+10FFFF.  A first byte says how many continuation bytes follow and between
which bounds the first of these lies.

Of malformed bytes the longest start that could still have been continued is at
fault: a byte that starts no character, a sequence cut short by a byte that does
not continue it, or one cut short by the end.
-/

namespace LoxLexer.Encoding.Utf8

/-- A character of which only the first bytes have been read. -/
structure Partial where
  first : UInt8
  /-- How many bytes have been read. -/
  used : Nat
  /-- How many bytes are still to come, less one. -/
  more : Nat
  /-- The bounds of the next byte. -/
  low : UInt8
  high : UInt8
  /-- The bits read so far. -/
  value : Nat
  deriving DecidableEq, Repr

/-! ## Algorithm -/

/-- What a byte above 0x7F starts. -/
def lead? (b : UInt8) : Option Partial :=
  if b < 0xC2 then none
  else if b ≤ 0xDF then some ⟨b, 1, 0, 0x80, 0xBF, b.toNat - 0xC0⟩
  else if b = 0xE0 then some ⟨b, 1, 1, 0xA0, 0xBF, b.toNat - 0xE0⟩
  else if b = 0xED then some ⟨b, 1, 1, 0x80, 0x9F, b.toNat - 0xE0⟩
  else if b ≤ 0xEF then some ⟨b, 1, 1, 0x80, 0xBF, b.toNat - 0xE0⟩
  else if b = 0xF0 then some ⟨b, 1, 2, 0x90, 0xBF, b.toNat - 0xF0⟩
  else if b ≤ 0xF3 then some ⟨b, 1, 2, 0x80, 0xBF, b.toNat - 0xF0⟩
  else if b = 0xF4 then some ⟨b, 1, 2, 0x80, 0x8F, b.toNat - 0xF0⟩
  else none

/-- The partial character at fault; `position` is the place behind it. -/
def Partial.malformed (p : Partial) (position : Nat) (flaw : Flaw) : Malformed :=
  ⟨"utf-8".toList, flaw, position - p.used, p.used, p.first⟩

/-- What `decode` gives behind the characters in `acc`, which are held last one first; `position`
is the place of the next byte. -/
def decodeFrom : Option Partial → Nat → Text → Bytes → Except Malformed Text
  | none, _, acc, [] => .ok acc.reverse
  | some p, position, _, [] => .error (p.malformed position .unexpectedEnd)
  | none, position, acc, b :: bs =>
    if b < 0x80 then decodeFrom none (position + 1) (Char.ofNat b.toNat :: acc) bs
    else
      match lead? b with
      | none => .error ⟨"utf-8".toList, .invalidStart, position, 1, b⟩
      | some p => decodeFrom (some p) (position + 1) acc bs
  | some p, position, acc, b :: bs =>
    if p.low ≤ b && b ≤ p.high then
      let value := p.value * 64 + (b.toNat - 0x80)
      match p.more with
      | 0 => decodeFrom none (position + 1) (Char.ofNat value :: acc) bs
      | more + 1 =>
        decodeFrom (some ⟨p.first, p.used + 1, more, 0x80, 0xBF, value⟩) (position + 1) acc bs
    else .error (p.malformed position .invalidContinuation)

def decode (bs : Bytes) : Except Malformed Text := decodeFrom none 0 [] bs

/-- The bytes of a character. -/
def encodeChar (c : Char) : Bytes :=
  let n := c.toNat
  if n < 0x80 then [UInt8.ofNat n]
  else if n < 0x800 then [UInt8.ofNat (0xC0 + n / 64), UInt8.ofNat (0x80 + n % 64)]
  else if n < 0x10000 then
    [UInt8.ofNat (0xE0 + n / 4096), UInt8.ofNat (0x80 + n / 64 % 64), UInt8.ofNat (0x80 + n % 64)]
  else
    [UInt8.ofNat (0xF0 + n / 262144), UInt8.ofNat (0x80 + n / 4096 % 64),
     UInt8.ofNat (0x80 + n / 64 % 64), UInt8.ofNat (0x80 + n % 64)]

def encode (t : Text) : Bytes := t.flatMap encodeChar

/-- What is left of a text in so many bytes; a replacement character stands for one cut in two. -/
def clip (room : Nat) : Text → Text
  | [] => []
  | c :: t =>
    if (encodeChar c).length ≤ room then c :: clip (room - (encodeChar c).length) t
    else if room = 0 then []
    else ['\ufffd']

/-! ## Lemmas -/

theorem encode_nil : encode [] = [] := rfl

theorem encode_cons (c : Char) (t : Text) : encode (c :: t) = encodeChar c ++ encode t := by
  simp [encode]

end LoxLexer.Encoding.Utf8
