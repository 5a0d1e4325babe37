import LoxLexer.Number.Binary64
import LoxLexer.Number.Integer

/-!
# Reading binary64 numbers

A written number is an optional sign and then a decimal numeral, or the word
for infinity or for not-a-number in any case of letters, with blanks around it.
A numeral has digits of any script with at most one point among or beside them,
and may have an exponent.  An underscore may stand between two digits.

The numeral `m · 10^e` is rounded from its exact value; only exponents far
outside the range of binary64 are cut short.
-/

namespace LoxLexer.Number

/-! ## Algorithm -/

/-- A numeral without its sign: the digits as one integer, their count, and the power of ten. -/
structure Numeral where
  digits : Nat
  count : Nat
  exponent : Int
  deriving DecidableEq, Repr

/-- Powers of ten past this bound lie outside the range of binary64. -/
def exponentBound : Nat := 400

/-- The encoding of the nearest binary64 number. -/
def Numeral.toBinary64 (n : Numeral) : Nat :=
  if n.digits = 0 then 0
  else if n.exponent > exponentBound then Binary64.infinity
  else if n.exponent + n.count + exponentBound < 0 then 0
  else if n.exponent < 0 then Binary64.ofRatio n.digits (Nat.pow 10 n.exponent.natAbs)
  else Binary64.ofRatio (n.digits * Nat.pow 10 n.exponent.natAbs) 1

/-- The same numeral in ASCII digits. -/
def plainDigits (t : Text) : Text :=
  t.map fun c => match Text.decimalValue? c with
    | some d => d.digitChar
    | none => c

/-- The text without the underscores between two digits, if it has no others. -/
def ungrouped : (afterDigit : Bool) → Text → Option Text
  | _, [] => some []
  | after, c :: t =>
    if c = '_' then
      if after && t.head?.any Char.isDigit then ungrouped false t else none
    else (ungrouped c.isDigit t).map (c :: ·)

def digitsOf (run : Text) : List Nat := run.map fun c => c.toNat - 48

/-- An exponent: nothing, or `e` with a sign and digits. -/
def readExponent : Text → Option Int
  | [] => some 0
  | c :: t =>
    let (minus, ds) := signed t
    if (c = 'e' || c = 'E') && ds ≠ [] && ds.all Char.isDigit then
      let e := ofDigits (digitsOf ds)
      some (if minus then -(e : Int) else e)
    else none

/-- A numeral: digits, a point and digits, an exponent. -/
def readNumeral (t : Text) : Option Numeral :=
  let whole := t.takeWhile Char.isDigit
  let after := t.dropWhile Char.isDigit
  let (fraction, rest) :=
    match after with
    | '.' :: r => (r.takeWhile Char.isDigit, r.dropWhile Char.isDigit)
    | r => ([], r)
  let run := whole ++ fraction
  if run = [] then none
  else (readExponent rest).map fun e =>
    { digits := ofDigits (digitsOf run), count := run.length, exponent := e - fraction.length }

/-- The encoding of an unsigned number. -/
def readMagnitude (t : Text) : Option Nat :=
  let word := t.map Char.toLower
  if word = "inf".toList || word = "infinity".toList then some Binary64.infinity
  else if word = "nan".toList then some Binary64.notANumber
  else (readNumeral t).map Numeral.toBinary64

/-- The encoding of a written number; the one not-a-number has no sign. -/
def readFloat (t : Text) : Except NumberError Nat :=
  let read := do
    let plain ← ungrouped false (plainDigits (Text.trim Text.isNumberBlank t))
    let (minus, body) := signed plain
    let bits ← readMagnitude body
    some (if minus && bits ≤ Binary64.infinity then Binary64.signBit + bits else bits)
  match read with
  | some bits => .ok bits
  | none => .error (.notAFloat t)

end LoxLexer.Number
