import LoxLexer.Text.Blank
import LoxLexer.Text.Digit
import LoxLexer.Text.Quoted

/-!
# Reading integers

A written integer is an optional sign and decimal digits of any script, in
groups joined by single underscores, with blanks around it.  The digits are
limited in number, leading zeros counted, so that a reader never has to build a
number out of an arbitrarily long text.
-/

namespace LoxLexer

/-- Why a text denotes no number. -/
inductive NumberError
  | notAnInteger (text : Text)
  | tooManyDigits (count : Nat)
  | notAFloat (text : Text)
  deriving DecidableEq, Repr

namespace Number

/-! ## Algorithm -/

/-- The most decimal digits that an integer is read from or written with. -/
def digitLimit : Nat := 4300

/-- The most characters of a refused integer that a message shows, in quoted form. -/
def shownLength : Nat := 200

/-- Decimal digits to their value, most significant first. -/
def ofDigits (ds : List Nat) : Nat := ds.foldl (fun n d => 10 * n + d) 0

/-- The least number with more digits than are ever written.  Proofs compare it and do not compute
it. -/
@[irreducible] def unwritable : Nat := Nat.pow 10 digitLimit

def isWritable (n : Int) : Bool := n.natAbs < unwritable

def isDecimal (c : Char) : Bool := (Text.decimalValue? c).isSome

/-- A sign at the front of a text, and the rest: `true` stands for minus. -/
def signed : Text → Bool × Text
  | '-' :: t => (true, t)
  | '+' :: t => (false, t)
  | t => (false, t)

/-- Non-empty groups of digits, joined by single underscores. -/
def isGrouped (run : Text) : Bool := (Text.pieces '_' run).all (· ≠ [])

def digitValues (run : Text) : List Nat := run.filterMap Text.decimalValue?

def readInteger (t : Text) : Except NumberError Int :=
  let (minus, body) := signed (t.dropWhile Text.isNumberBlank)
  let run := body.takeWhile fun c => isDecimal c || c = '_'
  let after := body.dropWhile fun c => isDecimal c || c = '_'
  let digits := digitValues run
  if !isGrouped run then .error (.notAnInteger t)
  else if digits.length > digitLimit then .error (.tooManyDigits digits.length)
  else if !after.all Text.isNumberBlank then .error (.notAnInteger t)
  else if minus then .ok (-(ofDigits digits : Int))
  else .ok (ofDigits digits)

end Number

def NumberError.message : NumberError → Text
  | .notAnInteger t =>
    "invalid literal for int() with base 10: ".toList ++ (Text.quoted t).take Number.shownLength
  | .tooManyDigits n =>
    "Exceeds the limit (4300 digits) for integer string conversion: value has ".toList ++
      Text.ofNat n ++ " digits; use sys.set_int_max_str_digits() to increase the limit".toList
  | .notAFloat t => "could not convert string to float: ".toList ++ Text.quoted t

end LoxLexer
