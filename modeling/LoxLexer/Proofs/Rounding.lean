import Mathlib.Order.Monotone.Basic
import Mathlib.Tactic.Linarith
import Mathlib.Tactic.Ring
import LoxLexer.Number.Binary64

/-!
# Correct rounding

What the encodings of binary64 stand for, and that `ofRatio` finds the number
nearest to a ratio, of two the one with the even significand.

Numbers are counted in units of 2^-1074.  The numbers with the encodings
`k · 2^52 + m`, for `m` from 2^52 to 2^53, are the multiples `m · 2^k`; for
`k = 0` the subnormal ones with smaller `m` are among them.  A ratio is rounded
to an encoding when it lies between the middles to the two neighbours, the cell
of the encoding.

    units (k · 2^52 + m) = m · 2^k                                   (units_grid)
    bits < bits' → units bits < units bits'                          (units_strictMono)
    num / den lies in the cell of bits,
      with ofRatio num den = min infinity bits                       (exists_cell)
    num / den ≤ num' / den' → ofRatio num den ≤ ofRatio num' den'    (ofRatio_mono)
    num / den is rounded to bits ↔ bits = ofRatio num den            (rounds_iff)
-/

namespace LoxLexer.Binary64

/-! ## Numbers and their encodings -/

/-- The significand of an encoding of 63 bits.  It has a first bit that is not written, unless the
number is subnormal. -/
def significand (bits : Nat) : Nat :=
  if bits / 2 ^ 52 = 0 then bits % 2 ^ 52 else 2 ^ 52 + bits % 2 ^ 52

/-- The number with an encoding of 63 bits, in units of 2^-1074. -/
def units (bits : Nat) : Nat := significand bits * 2 ^ (bits / 2 ^ 52 - 1)

/-- The number with an encoding of 64 bits, in units of 2^-1074. -/
def signedUnits (bits : Nat) : Int :=
  if bits < signBit then units bits else -units (bits - signBit)

/-- An encoding of 64 bits, and neither of an infinity nor of a not-a-number. -/
def IsFinite (bits : Nat) : Prop := bits < 2 * signBit ∧ bits % signBit < infinity

/-- How far a number is from `num / den`, in units of 2^-1074 and taken `den` times. -/
def distance (num den bits : Nat) : Nat :=
  (((num * 2 ^ 1074 : Nat) : Int) - signedUnits bits * den).natAbs

/-- `num / den` is rounded to the number with this encoding. -/
structure Rounds (num den bits : Nat) : Prop where
  le_infinity : bits ≤ infinity
  eq_infinity_iff : bits = infinity ↔ (2 ^ 1024 - 2 ^ 970) * den ≤ num
  eq_zero_iff : bits = 0 ↔ num * 2 ^ 1075 ≤ den
  nearest : bits < infinity → ∀ other, IsFinite other →
    distance num den bits ≤ distance num den other
  even : bits < infinity → ∀ other, IsFinite other → other ≠ bits →
    distance num den bits = distance num den other → significand bits % 2 = 0

theorem significand_mod_two (bits : Nat) : significand bits % 2 = bits % 2 := by
  unfold significand
  split <;> omega

theorem units_zero : units 0 = 0 := rfl

/-- The numbers of a grid. -/
theorem units_grid {k m : Nat} (hm : m ≤ 2 ^ 53) (hk : k ≠ 0 → 2 ^ 52 ≤ m) :
    units (k * 2 ^ 52 + m) = m * 2 ^ k := by
  unfold units significand
  rcases Nat.lt_trichotomy m (2 ^ 52) with hlt | rfl | hgt
  · have hzero : k = 0 := by
      by_contra hne
      exact absurd (hk hne) (Nat.not_le.mpr hlt)
    subst hzero
    have hdiv : (0 * 2 ^ 52 + m) / 2 ^ 52 = 0 := by omega
    have hmod : (0 * 2 ^ 52 + m) % 2 ^ 52 = m := by omega
    rw [hdiv, hmod, if_pos rfl]
  · have hdiv : (k * 2 ^ 52 + 2 ^ 52) / 2 ^ 52 = k + 1 := by omega
    have hmod : (k * 2 ^ 52 + 2 ^ 52) % 2 ^ 52 = 0 := by omega
    rw [hdiv, hmod, if_neg (Nat.succ_ne_zero k), Nat.add_sub_cancel, Nat.add_zero]
  · rcases Nat.lt_or_eq_of_le hm with hlt | rfl
    · have hdiv : (k * 2 ^ 52 + m) / 2 ^ 52 = k + 1 := by omega
      have hmod : 2 ^ 52 + (k * 2 ^ 52 + m) % 2 ^ 52 = m := by omega
      rw [hdiv, hmod, if_neg (Nat.succ_ne_zero k), Nat.add_sub_cancel]
    · -- the carry into the next exponent
      have hdiv : (k * 2 ^ 52 + 2 ^ 53) / 2 ^ 52 = k + 2 := by omega
      have hmod : (k * 2 ^ 52 + 2 ^ 53) % 2 ^ 52 = 0 := by omega
      rw [hdiv, hmod, if_neg (Nat.succ_ne_zero (k + 1))]
      show (2 ^ 52 + 0) * 2 ^ (k + 1) = 2 ^ 53 * 2 ^ k
      ring

/-- Every number lies on a grid, and not at its end. -/
theorem exists_grid (bits : Nat) :
    ∃ k m, bits = k * 2 ^ 52 + m ∧ m < 2 ^ 53 ∧ (k ≠ 0 → 2 ^ 52 ≤ m) := by
  refine ⟨bits / 2 ^ 52 - 1, bits - (bits / 2 ^ 52 - 1) * 2 ^ 52, ?_, ?_, ?_⟩
  · omega
  · omega
  · omega

theorem units_lt_succ (bits : Nat) : units bits < units (bits + 1) := by
  obtain ⟨k, m, rfl, hm, hk⟩ := exists_grid bits
  have hk' : k ≠ 0 → 2 ^ 52 ≤ m + 1 := by
    intro hne
    exact Nat.le_succ_of_le (hk hne)
  have hm' : m + 1 ≤ 2 ^ 53 := hm
  rw [Nat.add_assoc, units_grid hm.le hk, units_grid hm' hk']
  exact Nat.mul_lt_mul_of_pos_right (Nat.lt_succ_self m) (Nat.two_pow_pos k)

theorem units_strictMono : StrictMono units := strictMono_nat_of_lt_succ units_lt_succ

/-! ## Cells -/

/-- Twice the middle between a number and the next one, in units. -/
def middle (bits : Nat) : Nat := units bits + units (bits + 1)

/-- `x / den` units lie between the middles below and above a number.  They are no middle if the
encoding is odd. -/
structure Cell (x den bits : Nat) : Prop where
  le_middle : ∀ b, bits ≤ b → 2 * x ≤ middle b * den
  middle_le : ∀ b, b < bits → middle b * den ≤ 2 * x
  even : ∀ b, middle b * den = 2 * x → bits % 2 = 0

/-- How far the number with an encoding of 63 bits is from `x / den` units, `den` times. -/
def gap (x den bits : Nat) : Nat := ((x : Int) - (units bits * den : Nat)).natAbs

theorem gap_zero (x den : Nat) : gap x den 0 = x := by
  rw [gap, units_zero, Nat.zero_mul]
  rfl

theorem middle_strictMono : StrictMono middle := by
  apply strictMono_nat_of_lt_succ
  intro bits
  exact Nat.add_lt_add (units_lt_succ bits) (units_lt_succ (bits + 1))

theorem middle_grid {k m : Nat} (hm : m < 2 ^ 53) (hk : k ≠ 0 → 2 ^ 52 ≤ m) :
    middle (k * 2 ^ 52 + m) = (2 * m + 1) * 2 ^ k := by
  have hk' : k ≠ 0 → 2 ^ 52 ≤ m + 1 := by
    intro hne
    exact Nat.le_succ_of_le (hk hne)
  have hm' : m + 1 ≤ 2 ^ 53 := hm
  rw [middle, Nat.add_assoc, units_grid hm.le hk, units_grid hm' hk']
  ring

/-- The middles next to a number decide about all of them. -/
theorem Cell.of_neighbours {x den bits : Nat} (hle : 2 * x ≤ middle bits * den)
    (hge : ∀ b, bits = b + 1 → middle b * den ≤ 2 * x)
    (hodd : bits % 2 = 1 →
      2 * x < middle bits * den ∧ ∀ b, bits = b + 1 → middle b * den < 2 * x) :
    Cell x den bits := by
  have habove : ∀ b, bits ≤ b → middle bits * den ≤ middle b * den := by
    intro b hb
    exact Nat.mul_le_mul_right den (middle_strictMono.monotone hb)
  have hbelow : ∀ b, b < bits → ∃ p, bits = p + 1 ∧ middle b * den ≤ middle p * den := by
    intro b hb
    obtain ⟨p, rfl⟩ : ∃ p, bits = p + 1 := ⟨bits - 1, by omega⟩
    exact ⟨p, rfl, Nat.mul_le_mul_right den (middle_strictMono.monotone (Nat.le_of_lt_succ hb))⟩
  constructor
  · intro b hb
    exact Nat.le_trans hle (habove b hb)
  · intro b hb
    obtain ⟨p, hp, hmiddle⟩ := hbelow b hb
    exact Nat.le_trans hmiddle (hge p hp)
  · intro b htie
    by_contra hne
    obtain ⟨hlt, hgt⟩ := hodd (Nat.mod_two_ne_zero.mp hne)
    rcases Nat.lt_or_ge b bits with hb | hb
    · obtain ⟨p, hp, hmiddle⟩ := hbelow b hb
      exact absurd htie (Nat.lt_of_le_of_lt hmiddle (hgt p hp)).ne
    · exact absurd htie (Nat.lt_of_lt_of_le hlt (habove b hb)).ne'

section
variable {x den bits : Nat} (hden : 0 < den)

include hden

theorem middle_mul_lt {b b' : Nat} (h : b < b') : middle b * den < middle b' * den :=
  Nat.mul_lt_mul_of_pos_right (middle_strictMono h) hden

/-- What the encodings are that a ratio goes beyond. -/
theorem Cell.lt_iff_of_odd (h : Cell x den bits) {b : Nat} (hb : b % 2 = 1) :
    b < bits ↔ middle b * den ≤ 2 * x := by
  constructor
  · exact h.middle_le b
  · intro hle
    by_contra hge
    have htie := Nat.le_antisymm hle (h.le_middle b (Nat.le_of_not_lt hge))
    have heven := h.even b htie
    have hlt : bits < b := by omega
    have := middle_mul_lt hden hlt
    have := h.le_middle bits (Nat.le_refl bits)
    omega

theorem Cell.lt_iff_of_even (h : Cell x den bits) {b : Nat} (hb : b % 2 = 0) :
    b < bits ↔ middle b * den < 2 * x := by
  constructor
  · intro hlt
    apply Nat.lt_of_le_of_ne (h.middle_le b hlt)
    intro htie
    have heven := h.even b htie
    have hnext : b + 1 < bits := by omega
    have := middle_mul_lt hden (Nat.lt_add_one b)
    have := h.middle_le (b + 1) hnext
    omega
  · intro hlt
    by_contra hge
    exact absurd (h.le_middle b (Nat.le_of_not_lt hge)) (Nat.not_le.mpr hlt)

/-- A greater ratio does not have a smaller encoding. -/
theorem Cell.le {x' den' bits' : Nat} (h : Cell x den bits) (h' : Cell x' den' bits')
    (hden' : 0 < den') (hle : x * den' ≤ x' * den) : bits ≤ bits' := by
  by_contra hlt
  have hbelow := Nat.lt_of_not_le hlt
  rcases Nat.mod_two_eq_zero_or_one bits' with hb | hb
  · have hmiddle := (h.lt_iff_of_even hden hb).mp hbelow
    apply Nat.lt_irrefl bits'
    rw [h'.lt_iff_of_even hden' hb]
    apply Nat.lt_of_mul_lt_mul_right (a := den)
    calc middle bits' * den' * den = middle bits' * den * den' := Nat.mul_right_comm ..
      _ < 2 * x * den' := Nat.mul_lt_mul_of_pos_right hmiddle hden'
      _ ≤ 2 * x' * den := by linarith
  · have hmiddle := (h.lt_iff_of_odd hden hb).mp hbelow
    apply Nat.lt_irrefl bits'
    rw [h'.lt_iff_of_odd hden' hb]
    apply Nat.le_of_mul_le_mul_right _ hden
    calc middle bits' * den' * den = middle bits' * den * den' := Nat.mul_right_comm ..
      _ ≤ 2 * x * den' := Nat.mul_le_mul_right den' hmiddle
      _ ≤ 2 * x' * den := by linarith

/-- The number of a cell is the nearest one, and of two the one with the even encoding. -/
theorem Cell.nearest (h : Cell x den bits) {other : Nat} (hne : other ≠ bits) :
    gap x den bits ≤ gap x den other ∧ (gap x den bits = gap x den other → bits % 2 = 0) := by
  unfold gap
  rcases Nat.lt_or_gt_of_ne hne with hlt | hgt
  · -- the middle below the number is not below the middle to the other one
    obtain ⟨p, rfl⟩ : ∃ p, bits = p + 1 := ⟨bits - 1, by omega⟩
    have hmiddle := h.middle_le p (Nat.lt_add_one p)
    have htie := h.even p
    have hunits : units other * den < units (p + 1) * den :=
      Nat.mul_lt_mul_of_pos_right (units_strictMono hlt) hden
    have hother : units other * den ≤ units p * den :=
      Nat.mul_le_mul_right den (units_strictMono.monotone (Nat.le_of_lt_succ hlt))
    rw [middle, Nat.add_mul] at hmiddle htie
    omega
  · have hmiddle := h.le_middle bits (Nat.le_refl bits)
    have htie := h.even bits
    have hunits : units bits * den < units other * den :=
      Nat.mul_lt_mul_of_pos_right (units_strictMono hgt) hden
    have hother : units (bits + 1) * den ≤ units other * den :=
      Nat.mul_le_mul_right den (units_strictMono.monotone hgt)
    rw [middle, Nat.add_mul] at hmiddle htie
    omega

theorem Cell.gap_le (h : Cell x den bits) (other : Nat) : gap x den bits ≤ gap x den other := by
  by_cases heq : other = bits
  · rw [heq]
  · exact (h.nearest hden heq).1

end

/-! ## Rounding -/

theorem two_pow_add {e u v : Nat} (h : e = u + v) : 2 ^ e = 2 ^ u * 2 ^ v := by
  rw [h, pow_add]

theorem mul_two_pow_succ {e u : Nat} (h : e = u + 1) (n : Nat) : 2 * (n * 2 ^ u) = n * 2 ^ e := by
  rw [h, pow_succ', Nat.mul_left_comm]

theorem ofRatio_eq {num den x e : Nat} (he : e = 1074) (hx : x = num * 2 ^ e) :
    ofRatio num den = min infinity (gridExponent (x / den) * 2 ^ 52 +
      roundHalfEven x (den * 2 ^ gridExponent (x / den))) := by
  have hscaled : num <<< 1074 = x := by rw [hx, ← he, Nat.shiftLeft_eq]
  rw [ofRatio, hscaled]
  simp only [Nat.shiftLeft_eq]

/-- A ratio reaches over the grid it is rounded on, but not beyond it. -/
theorem gridExponent_spec {x den : Nat} (hden : 0 < den) :
    x < 2 ^ 53 * (den * 2 ^ gridExponent (x / den)) ∧
      (gridExponent (x / den) ≠ 0 → 2 ^ 52 * (den * 2 ^ gridExponent (x / den)) ≤ x) := by
  have hgrid : gridExponent (x / den) = (x / den).log2 - 52 := rfl
  constructor
  · have hlog : x / den < 2 ^ ((x / den).log2 + 1) := Nat.lt_log2_self
    have hexponent : (x / den).log2 + 1 ≤ 53 + gridExponent (x / den) := by omega
    have hlt : x / den < 2 ^ (53 + gridExponent (x / den)) :=
      Nat.lt_of_lt_of_le hlog (Nat.pow_le_pow_right Nat.zero_lt_two hexponent)
    calc x < 2 ^ (53 + gridExponent (x / den)) * den := (Nat.div_lt_iff_lt_mul hden).mp hlt
      _ = 2 ^ 53 * (den * 2 ^ gridExponent (x / den)) := by ring
  · intro hne
    have hsome : x / den ≠ 0 := by
      intro hzero
      apply hne
      rw [hzero]
      rfl
    have hlog : 2 ^ (x / den).log2 ≤ x / den := Nat.log2_self_le hsome
    have hexponent : (x / den).log2 = 52 + gridExponent (x / den) := by omega
    rw [hexponent] at hlog
    calc 2 ^ 52 * (den * 2 ^ gridExponent (x / den))
        = 2 ^ (52 + gridExponent (x / den)) * den := by ring
      _ ≤ x := (Nat.le_div_iff_mul_le hden).mp hlog

/-- The middle above a number of a grid. -/
theorem middle_grid_mul {k m : Nat} (den : Nat) (hm : m < 2 ^ 53) (hk : k ≠ 0 → 2 ^ 52 ≤ m) :
    middle (k * 2 ^ 52 + m) * den = 2 * (m * (den * 2 ^ k)) + den * 2 ^ k := by
  rw [middle_grid hm hk]
  ring

/-- Rounding on a grid finds the cell. -/
theorem cell_grid {x den k : Nat} (hden : 0 < den) (hlt : x < 2 ^ 53 * (den * 2 ^ k))
    (hle : k ≠ 0 → 2 ^ 52 * (den * 2 ^ k) ≤ x) :
    Cell x den (k * 2 ^ 52 + roundHalfEven x (den * 2 ^ k)) := by
  have hstep : 0 < den * 2 ^ k := Nat.mul_pos hden (Nat.two_pow_pos k)
  obtain ⟨hlow, hhigh⟩ := roundHalfEven_bounds hstep x
  have hodd : roundHalfEven x (den * 2 ^ k) % 2 = 1 → _ := roundHalfEven_bounds_of_odd hstep
  generalize roundHalfEven x (den * 2 ^ k) = q at *
  have hq : q ≤ 2 ^ 53 := by
    by_contra hgt
    have := Nat.mul_le_mul_right (den * 2 ^ k) (Nat.succ_le_of_lt (Nat.lt_of_not_le hgt))
    rw [Nat.succ_mul] at this
    omega
  have hk : k ≠ 0 → 2 ^ 52 ≤ q := by
    intro hne
    by_contra hgt
    have := Nat.mul_le_mul_right (den * 2 ^ k) (Nat.succ_le_of_lt (Nat.lt_of_not_le hgt))
    have := hle hne
    rw [Nat.succ_mul] at *
    omega
  have habove : q < 2 ^ 53 → middle (k * 2 ^ 52 + q) * den =
      2 * (q * (den * 2 ^ k)) + den * 2 ^ k := by
    intro hlt
    exact middle_grid_mul den hlt hk
  have hbelow : ∀ b, k * 2 ^ 52 + q = b + 1 → ¬ (k ≠ 0 ∧ q = 2 ^ 52) →
      middle b * den + den * 2 ^ k = 2 * (q * (den * 2 ^ k)) := by
    intro b hb hfirst
    obtain ⟨p, rfl⟩ : ∃ p, q = p + 1 := ⟨q - 1, by omega⟩
    have hb' : b = k * 2 ^ 52 + p := by omega
    rw [hb', middle_grid_mul den (by omega) (by omega)]
    ring
  apply Cell.of_neighbours
  · rcases Nat.lt_or_eq_of_le hq with hlt | rfl
    · rw [habove hlt]
      exact hhigh
    · -- the next number is on the next grid
      have hnext : k * 2 ^ 52 + 2 ^ 53 = (k + 1) * 2 ^ 52 + 2 ^ 52 := by ring
      have htwice : den * 2 ^ (k + 1) = 2 * (den * 2 ^ k) := by ring
      rw [hnext, middle_grid_mul den (by decide) (fun _ => Nat.le_refl _), htwice]
      omega
  · intro b hb
    by_cases hfirst : k ≠ 0 ∧ q = 2 ^ 52
    · -- the number before is on the grid before
      obtain ⟨hne, rfl⟩ := hfirst
      obtain ⟨j, rfl⟩ := Nat.exists_eq_succ_of_ne_zero hne
      have hb' : b = j * 2 ^ 52 + (2 ^ 53 - 1) := by omega
      have htwice : den * 2 ^ (j + 1) = 2 * (den * 2 ^ j) := by ring
      have := hle hne
      rw [hb', middle_grid_mul den (by decide) (fun _ => by decide)]
      rw [Nat.succ_eq_add_one, htwice] at *
      omega
    · have := hbelow b hb hfirst
      omega
  · intro hbits
    have hq' : q % 2 = 1 := by omega
    obtain ⟨hlow, hhigh⟩ := hodd hq'
    constructor
    · rw [habove (by omega)]
      exact hhigh
    · intro b hb
      have := hbelow b hb (by omega)
      omega

theorem infinity_lt_signBit : infinity < signBit := by decide

theorem isFinite_of_lt {bits : Nat} (h : bits < infinity) : IsFinite bits := by
  have hlt := Nat.lt_trans h infinity_lt_signBit
  refine ⟨by omega, ?_⟩
  rw [Nat.mod_eq_of_lt hlt]
  exact h

theorem distance_of_lt (num den : Nat) {bits : Nat} (h : bits < signBit) :
    distance num den bits = gap (num * 2 ^ 1074) den bits := by
  rw [distance, gap, signedUnits, if_pos h, Nat.cast_mul (units bits)]

theorem distance_of_ge (num den : Nat) {bits : Nat} (h : signBit ≤ bits) :
    distance num den bits = num * 2 ^ 1074 + units (bits - signBit) * den := by
  rw [distance, signedUnits, if_neg (Nat.not_lt.mpr h), Int.neg_mul, Int.sub_neg,
    ← Nat.cast_mul (units _), ← Nat.cast_add, Int.natAbs_natCast]

section
variable {num den : Nat} (hden : 0 < den)

include hden

theorem exists_cell (num : Nat) :
    ∃ bits, ofRatio num den = min infinity bits ∧ Cell (num * 2 ^ 1074) den bits := by
  obtain ⟨hlt, hle⟩ := gridExponent_spec (x := num * 2 ^ 1074) hden
  exact ⟨_, ofRatio_eq rfl rfl, cell_grid hden hlt hle⟩

/-- A greater ratio is not rounded to a smaller number. -/
theorem ofRatio_mono {num' den' : Nat} (hden' : 0 < den') (hle : num * den' ≤ num' * den) :
    ofRatio num den ≤ ofRatio num' den' := by
  obtain ⟨bits, hbits, hcell⟩ := exists_cell hden num
  obtain ⟨bits', hbits', hcell'⟩ := exists_cell hden' num'
  have hunits : num * 2 ^ 1074 * den' ≤ num' * 2 ^ 1074 * den := by
    rw [Nat.mul_right_comm, Nat.mul_right_comm num']
    exact Nat.mul_le_mul_right _ hle
  rw [hbits, hbits']
  exact min_le_min_left infinity (hcell.le hden hcell' hden' hunits)

/-- Equal ratios are rounded to the same number. -/
theorem ofRatio_congr {num' den' : Nat} (hden' : 0 < den') (heq : num * den' = num' * den) :
    ofRatio num den = ofRatio num' den' :=
  Nat.le_antisymm (ofRatio_mono hden hden' heq.le) (ofRatio_mono hden' hden heq.ge)

/-- Infinity begins at the middle between the greatest number and the one that would be next. -/
theorem Cell.infinity_le_iff {bits : Nat} (h : Cell (num * 2 ^ 1074) den bits) :
    infinity ≤ bits ↔ (2 ^ 1024 - 2 ^ 970) * den ≤ num := by
  have hlast : infinity = 2045 * 2 ^ 52 + (2 ^ 53 - 1) + 1 := rfl
  have hpower : 2 ^ 2045 = 2 ^ 970 * 2 ^ 1075 := two_pow_add rfl
  have hthreshold : 2 ^ 1024 = 2 ^ 54 * 2 ^ 970 := two_pow_add rfl
  have hscale : 0 < 2 ^ 1075 := pow_pos Nat.zero_lt_two 1075
  rw [hlast, Nat.add_one_le_iff, h.lt_iff_of_odd hden (by decide),
    middle_grid (by decide) (fun _ => by decide), hpower, hthreshold, ← Nat.sub_one_mul,
    mul_two_pow_succ rfl]
  generalize 2 ^ 1075 = s at hscale ⊢
  generalize 2 ^ 970 = v
  have hleft : (2 * (2 ^ 53 - 1) + 1) * (v * s) * den = (2 ^ 54 - 1) * v * den * s := by ring
  rw [hleft]
  exact Nat.mul_le_mul_right_iff hscale

theorem Cell.eq_zero_iff {bits : Nat} (h : Cell (num * 2 ^ 1074) den bits) :
    bits = 0 ↔ num * 2 ^ 1075 ≤ den := by
  have hmiddle : middle 0 = 1 := by decide
  have hbits := h.lt_iff_of_even hden (b := 0) rfl
  rw [hmiddle, Nat.one_mul, mul_two_pow_succ rfl] at hbits
  rw [← Nat.not_lt, ← hbits]
  omega

/-- A ratio is rounded to the nearest number, of two to the one with the even significand, and to
infinity when it is too great. -/
theorem rounds_ofRatio (num : Nat) : Rounds num den (ofRatio num den) := by
  obtain ⟨bits, hbits, hcell⟩ := exists_cell hden num
  have hinfinity : infinity ≠ 0 := by decide
  constructor
  · exact ofRatio_le num den
  · rw [← hcell.infinity_le_iff hden, hbits, min_eq_left_iff]
  · rw [← hcell.eq_zero_iff hden, hbits]
    omega
  · intro hlt other _
    have hfinite : ofRatio num den = bits := by omega
    rw [hfinite] at hlt ⊢
    rw [distance_of_lt num den (Nat.lt_trans hlt infinity_lt_signBit)]
    rcases Nat.lt_or_ge other signBit with hpositive | hnegative
    · rw [distance_of_lt num den hpositive]
      exact hcell.gap_le hden other
    · rw [distance_of_ge num den hnegative]
      have hzero := hcell.gap_le hden 0
      rw [gap_zero] at hzero
      exact Nat.le_add_right_of_le hzero
  · intro hlt other _ hne htie
    have hfinite : ofRatio num den = bits := by omega
    rw [hfinite] at hlt hne htie ⊢
    rw [significand_mod_two]
    rw [distance_of_lt num den (Nat.lt_trans hlt infinity_lt_signBit)] at htie
    rcases Nat.lt_or_ge other signBit with hpositive | hnegative
    · rw [distance_of_lt num den hpositive] at htie
      exact (hcell.nearest hden hne).2 htie
    · -- zero is not farther than a negative number
      rw [distance_of_ge num den hnegative] at htie
      by_cases hbits : 0 = bits
      · rw [← hbits]
      · have hzero := hcell.nearest hden hbits
        rw [gap_zero] at hzero
        apply hzero.2
        exact Nat.le_antisymm hzero.1 (htie ▸ Nat.le_add_right _ _)

theorem Rounds.not_lt {a b : Nat} (ha : Rounds num den a) (hb : Rounds num den b) : ¬ a < b := by
  intro hlt
  have hafinite : a < infinity := Nat.lt_of_lt_of_le hlt hb.le_infinity
  have hbfinite : b < infinity := by
    apply Nat.lt_of_le_of_ne hb.le_infinity
    intro hinfinity
    exact hafinite.ne (ha.eq_infinity_iff.mpr (hb.eq_infinity_iff.mp hinfinity))
  have htie : distance num den a = distance num den b :=
    Nat.le_antisymm (ha.nearest hafinite b (isFinite_of_lt hbfinite))
      (hb.nearest hbfinite a (isFinite_of_lt hafinite))
  have haeven := ha.even hafinite b (isFinite_of_lt hbfinite) hlt.ne' htie
  have hbeven := hb.even hbfinite a (isFinite_of_lt hafinite) hlt.ne htie.symm
  rw [significand_mod_two] at haeven hbeven
  -- the odd number between them is nearer
  have hbetween : a + 1 < b := by omega
  have hfinite : a + 1 < infinity := Nat.lt_trans hbetween hbfinite
  have hnearest := ha.nearest hafinite (a + 1) (isFinite_of_lt hfinite)
  have hleft : units a * den < units (a + 1) * den :=
    Nat.mul_lt_mul_of_pos_right (units_lt_succ a) hden
  have hright : units (a + 1) * den < units b * den :=
    Nat.mul_lt_mul_of_pos_right (units_strictMono hbetween) hden
  rw [distance_of_lt num den (Nat.lt_trans hafinite infinity_lt_signBit)] at hnearest htie
  rw [distance_of_lt num den (Nat.lt_trans hbfinite infinity_lt_signBit)] at htie
  rw [distance_of_lt num den (Nat.lt_trans hfinite infinity_lt_signBit)] at hnearest
  generalize num * 2 ^ 1074 = x at hnearest htie
  unfold gap at hnearest htie
  omega

/-- **Correct rounding.**  There is one number that a ratio is rounded to. -/
theorem rounds_iff (num bits : Nat) : Rounds num den bits ↔ bits = ofRatio num den := by
  constructor
  · intro h
    have hof := rounds_ofRatio hden num
    exact Nat.le_antisymm (Nat.le_of_not_lt (hof.not_lt hden h))
      (Nat.le_of_not_lt (h.not_lt hden hof))
  · rintro rfl
    exact rounds_ofRatio hden num

end

end LoxLexer.Binary64
