import LoxLexer.Encoding.Malformed

/-!
# UTF-16

A text in units of two bytes; a character above U+FFFF is a high and a low
surrogate.  The bytes of a unit come in one of two orders, which the first unit
may tell: a byte order mark in that order, which is then no part of the text.
-/

namespace LoxLexer.Encoding.Utf16

inductive Order
  | little
  | big
  deriving DecidableEq, Repr

/-! ## Algorithm -/

def Order.name : Order → Text
  | little => "utf-16-le".toList
  | big => "utf-16-be".toList

def Order.unit : Order → UInt8 → UInt8 → Nat
  | little, a, b => b.toNat * 256 + a.toNat
  | big, a, b => a.toNat * 256 + b.toNat

def isHigh (u : Nat) : Bool := 0xD800 ≤ u && u ≤ 0xDBFF

def isLow (u : Nat) : Bool := 0xDC00 ≤ u && u ≤ 0xDFFF

/-- The character of a high and a low surrogate. -/
def join (high low : Nat) : Char := Char.ofNat (0x10000 + (high - 0xD800) * 1024 + (low - 0xDC00))

/-- What `decode` gives behind the characters in `acc`, which are held last one first.  `pending`
is a high surrogate and its first byte, just before `position`. -/
def decodeFrom (o : Order) : (pending : Option (Nat × UInt8)) → (position : Nat) →
    (acc : Text) → Bytes → Except Malformed Text
  | none, _, acc, [] => .ok acc.reverse
  | none, position, _, [a] => .error ⟨o.name, .truncated, position, 1, a⟩
  | some (_, f), position, _, [] => .error ⟨o.name, .unexpectedEnd, position - 2, 2, f⟩
  | some (_, f), position, _, [_] => .error ⟨o.name, .unexpectedEnd, position - 2, 3, f⟩
  | none, position, acc, a :: b :: bs =>
    let u := o.unit a b
    if isHigh u then decodeFrom o (some (u, a)) (position + 2) acc bs
    else if isLow u then .error ⟨o.name, .illegalUnit, position, 2, a⟩
    else decodeFrom o none (position + 2) (Char.ofNat u :: acc) bs
  | some (h, f), position, acc, a :: b :: bs =>
    let u := o.unit a b
    if isLow u then decodeFrom o none (position + 2) (join h u :: acc) bs
    else .error ⟨o.name, .illegalSurrogate, position - 2, 2, f⟩

/-- A text in a known order; a byte order mark is a character of it. -/
def decodeOrdered (o : Order) (bs : Bytes) : Except Malformed Text := decodeFrom o none 0 [] bs

/-- A text whose byte order mark tells the order; without one it is little-endian. -/
def decode : Bytes → Except Malformed Text
  | 0xFF :: 0xFE :: bs => decodeFrom .little none 2 [] bs
  | 0xFE :: 0xFF :: bs => decodeFrom .big none 2 [] bs
  | bs => decodeOrdered .little bs

end LoxLexer.Encoding.Utf16
