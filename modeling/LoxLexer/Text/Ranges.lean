/-!
# Sorted ranges of code points

A property of characters is given as a list of closed ranges of code points in
increasing order.  `covers` stops at the first range that lies past the code
point.
-/

namespace LoxLexer.Ranges

def covers : List (Nat × Nat) → Nat → Bool
  | [], _ => false
  | (lo, hi) :: rs, n => if n < lo then false else n ≤ hi || covers rs n

end LoxLexer.Ranges
