/-!
# Rounding to binary64

A non-negative binary64 number is given by the lower 63 bits of its encoding, a
natural number: the encodings of the finite numbers and of infinity count up
with the numbers themselves.  `ofRatio num den` is the encoding of the number
nearest to `num / den`, ties to the even one.

Measured in units of 2^-1074, the smallest positive number, a rational `v` is
rounded on the grid of multiples of 2^k, for the least `k` with
`v < 2^(53 + k)`.  The encoding of `m · 2^k` units is then `k · 2^52 + m`, also
when rounding carries `m` up to 2^53.

    ofRatio 0 den = 0                                           (ofRatio_zero)
    ofRatio num den ≤ infinity                                  (ofRatio_le)
-/

namespace LoxLexer.Binary64

/-! ## Algorithm -/

/-- The encoding of infinity. -/
def infinity : Nat := 0x7FF <<< 52

/-- The encoding of the one not-a-number that is ever read. -/
def notANumber : Nat := infinity + 1 <<< 51

/-- The bit that makes a number negative. -/
def signBit : Nat := 1 <<< 63

/-- The integer nearest to `num / den`, of two the even one. -/
def roundHalfEven (num den : Nat) : Nat :=
  let q := num / den
  let r := num % den
  if 2 * r < den then q
  else if den < 2 * r then q + 1
  else if q % 2 = 0 then q else q + 1

/-- The exponent of the grid on which `units` (a whole number of units) is rounded. -/
def gridExponent (units : Nat) : Nat := units.log2 - 52

def ofRatio (num den : Nat) : Nat :=
  let scaled := num <<< 1074
  let k := gridExponent (scaled / den)
  min infinity (k <<< 52 + roundHalfEven scaled (den <<< k))

/-! ## Lemmas -/

theorem roundHalfEven_zero (den : Nat) : roundHalfEven 0 den = 0 := by
  simp only [roundHalfEven, Nat.zero_div, Nat.zero_mod, Nat.mul_zero]
  split
  · rfl
  · split
    · omega
    · rfl

theorem ofRatio_zero (den : Nat) : ofRatio 0 den = 0 := by
  simp only [ofRatio, Nat.zero_shiftLeft, Nat.zero_div, gridExponent, roundHalfEven_zero,
    Nat.log2_zero, Nat.zero_sub, Nat.add_zero, Nat.min_zero]

theorem ofRatio_le (num den : Nat) : ofRatio num den ≤ infinity := Nat.min_le_left ..

/-- Rounding goes to one of the two neighbours. -/
theorem roundHalfEven_bounds {den : Nat} (h : 0 < den) (num : Nat) :
    2 * (roundHalfEven num den * den) ≤ 2 * num + den ∧
      2 * num ≤ 2 * (roundHalfEven num den * den) + den := by
  have hd := Nat.div_add_mod num den
  have hm : den * (num / den) = num / den * den := Nat.mul_comm ..
  have hs : (num / den + 1) * den = num / den * den + den := Nat.succ_mul ..
  have hlt := Nat.mod_lt num h
  unfold roundHalfEven
  simp only
  repeat' split
  all_goals omega

/-- A ratio is not half way to an odd neighbour. -/
theorem roundHalfEven_bounds_of_odd {num den : Nat} (h : 0 < den)
    (hodd : roundHalfEven num den % 2 = 1) :
    2 * (roundHalfEven num den * den) < 2 * num + den ∧
      2 * num < 2 * (roundHalfEven num den * den) + den := by
  have hd := Nat.div_add_mod num den
  have hm : den * (num / den) = num / den * den := Nat.mul_comm ..
  have hs : (num / den + 1) * den = num / den * den + den := Nat.succ_mul ..
  have hlt := Nat.mod_lt num h
  revert hodd
  unfold roundHalfEven
  simp only
  repeat' split
  all_goals omega

end LoxLexer.Binary64
