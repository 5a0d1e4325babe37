import LoxLexer.Text.Basic

/-!
# Malformed bytes

Why a sequence of bytes is no text of an encoding, and which bytes are to blame.
-/

namespace LoxLexer

abbrev Bytes := List UInt8

namespace Encoding

inductive Flaw
  | invalidStart
  | invalidContinuation
  | unexpectedEnd
  | outsideAscii
  | truncated
  | illegalSurrogate
  | illegalUnit
  deriving DecidableEq, Repr

/-- The first `length` bytes at `position` are at fault; `first` is the first of them. -/
structure Malformed where
  encoding : Text
  flaw : Flaw
  position : Nat
  length : Nat
  first : UInt8
  deriving DecidableEq, Repr

/-! ## Algorithm -/

def Flaw.message : Flaw → Text
  | invalidStart => "invalid start byte".toList
  | invalidContinuation => "invalid continuation byte".toList
  | unexpectedEnd => "unexpected end of data".toList
  | outsideAscii => "ordinal not in range(128)".toList
  | truncated => "truncated data".toList
  | illegalSurrogate => "illegal UTF-16 surrogate".toList
  | illegalUnit => "illegal encoding".toList

/-- A byte in two hexadecimal digits. -/
def hexByte (b : UInt8) : Text := [(b.toNat / 16).digitChar, (b.toNat % 16).digitChar]

def Malformed.message (m : Malformed) : Text :=
  let place :=
    if m.length = 1 then
      "byte 0x".toList ++ hexByte m.first ++ " in position ".toList ++ Text.ofNat m.position
    else
      "bytes in position ".toList ++ Text.ofNat m.position ++ "-".toList ++
        Text.ofNat (m.position + m.length - 1)
  "'".toList ++ m.encoding ++ "' codec can't decode ".toList ++ place ++ ": ".toList ++
    m.flaw.message

end Encoding

end LoxLexer
