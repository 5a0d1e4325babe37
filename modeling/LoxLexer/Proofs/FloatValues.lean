import LoxLexer.Proofs.IntegerValues
import LoxLexer.Proofs.Rounding

/-!
# The values of float literals

The lexeme of a float token is made of ASCII digits, a point and more digits,
however many.  It stands for a ratio of two integers, and its value is what that
ratio is correctly rounded to.  So a greater ratio has no smaller value, and
zeros at either end of the lexeme change nothing.

    a float token has digits on both sides of a point         (Emits.isFloat)
    its text is read as a ratio, and the ratio is rounded     (readFloat_point)
    zeros at the ends extend the ratio                        (numerator_padded, denominator_padded)
    the values of any two float tokens                        (float_values)
-/

namespace LoxLexer

/-! ## Literals and ratios -/

/-- The digits before the point. -/
def wholePart (w : Text) : Text := w.takeWhile Char.isDigit

/-- The digits behind the point. -/
def fractionPart (w : Text) : Text := (w.dropWhile Char.isDigit).tail

/-- Digits, a point and digits. -/
structure IsFloat (w : Text) : Prop where
  whole : IsDigits (wholePart w)
  fraction : IsDigits (fractionPart w)
  form : w = wholePart w ++ '.' :: fractionPart w

/-- The number that a literal would stand for without its point. -/
def numerator (w : Text) : Nat := decimal (wholePart w ++ fractionPart w)

/-- The power of ten that a literal stands for a fraction of. -/
def denominator (w : Text) : Nat := 10 ^ (fractionPart w).length

section
variable {a : Text} (h : IsDigits a)

include h

theorem wholePart_point (b : Text) : wholePart (a ++ '.' :: b) = a := takeWhile_isDigit h b

theorem fractionPart_point (b : Text) : fractionPart (a ++ '.' :: b) = b := by
  rw [fractionPart, dropWhile_isDigit h, List.tail_cons]

theorem IsFloat.of_isDigits {b : Text} (h' : IsDigits b) : IsFloat (a ++ '.' :: b) where
  whole := (wholePart_point h b).symm ▸ h
  fraction := (fractionPart_point h b).symm ▸ h'
  form := by rw [wholePart_point h, fractionPart_point h]

end

theorem IsWord.isFloat {w : Text} (h : IsWord .float w) : IsFloat w := by
  have hk : ∀ p ∈ Kind.keywords, p.2 ≠ .float := by decide
  cases h with
  | keyword h => exact absurd rfl (hk _ h)
  | float ha hb => exact .of_isDigits ha hb

theorem denominator_pos (w : Text) : 0 < denominator w := Nat.pow_pos (by decide)

/-! ## Reading literals -/

namespace Number

theorem digitChar_digitValue {c : Char} (h : c.isDigit = true) : (digitValue c).digitChar = c := by
  have hchar : ∀ d, d < 10 → d.digitChar = Char.ofNat (d + 48) := by decide
  rw [hchar _ (digitValue_lt h), ofNat_digitValue h]

theorem ungrouped_of_not_mem {t : Text} (h : '_' ∉ t) (after : Bool) :
    ungrouped after t = some t := by
  induction t generalizing after with
  | nil => rfl
  | cons c t ih =>
    rw [List.mem_cons, not_or] at h
    rw [ungrouped, if_neg (Ne.symm h.1), ih h.2, Option.map_some]

/-- The exponent is never so far out of range that it is cut short. -/
theorem toBinary64_point (a : Text) {b : Text} (hb : IsDigits b) :
    Numeral.toBinary64 ⟨decimal (a ++ b), (a ++ b).length, -(b.length : Int)⟩ =
      Binary64.ofRatio (decimal (a ++ b)) (10 ^ b.length) := by
  have hlength := List.length_pos_of_ne_nil hb.1
  unfold Numeral.toBinary64 exponentBound
  simp only [List.length_append]
  split
  · next hzero => rw [hzero, Binary64.ofRatio_zero]
  · rw [if_neg (by omega), if_neg (by omega), if_pos (by omega), Int.natAbs_neg,
      Int.natAbs_natCast]
    rfl

section
variable {a b : Text} (ha : IsDigits a) (hb : IsDigits b)

include ha hb

theorem isDigit_or_eq_point : ∀ c ∈ a ++ '.' :: b, c.isDigit = true ∨ c = '.' := by
  intro c hc
  rcases List.mem_append.mp hc with hc | hc
  · exact Or.inl (ha.2 c hc)
  · rcases List.mem_cons.mp hc with hc | hc
    · exact Or.inr hc
    · exact Or.inl (hb.2 c hc)

theorem trim_point : Text.trim Text.isNumberBlank (a ++ '.' :: b) = a ++ '.' :: b := by
  apply Text.trim_of_forall
  intro c hc
  rcases isDigit_or_eq_point ha hb c hc with hdigit | rfl
  · exact not_isNumberBlank_of_isDigit hdigit
  · decide

theorem plainDigits_point : plainDigits (a ++ '.' :: b) = a ++ '.' :: b := by
  conv =>
    rhs
    rw [← List.map_id (a ++ '.' :: b)]
  apply List.map_congr_left
  intro c hc
  rcases isDigit_or_eq_point ha hb c hc with hdigit | rfl
  · rw [Text.decimalValue?_of_isDigit hdigit]
    exact digitChar_digitValue hdigit
  · decide

theorem ungrouped_point (after : Bool) :
    ungrouped after (a ++ '.' :: b) = some (a ++ '.' :: b) := by
  apply ungrouped_of_not_mem
  intro hmem
  rcases isDigit_or_eq_point ha hb '_' hmem with hdigit | heq
  · exact absurd hdigit (by decide)
  · exact absurd heq (by decide)

theorem readNumeral_point : readNumeral (a ++ '.' :: b) =
    some ⟨decimal (a ++ b), (a ++ b).length, -(b.length : Int)⟩ := by
  have hdigits : digitsOf (a ++ b) = (a ++ b).map digitValue := rfl
  have htake : b.takeWhile Char.isDigit = b := List.takeWhile_eq_self_iff.mpr hb.2
  have hdrop : b.dropWhile Char.isDigit = [] := List.dropWhile_eq_nil_iff.mpr hb.2
  have hrun : a ++ b ≠ [] := List.append_ne_nil_of_left_ne_nil ha.1 b
  unfold readNumeral
  simp only [takeWhile_isDigit ha, dropWhile_isDigit ha, htake, hdrop, if_neg hrun, readExponent,
    Option.map_some, hdigits, ofDigits_digitValues, Int.zero_sub]

theorem readMagnitude_point : readMagnitude (a ++ '.' :: b) =
    some (Binary64.ofRatio (decimal (a ++ b)) (10 ^ b.length)) := by
  -- no word has a point in it
  have hword : ∀ word : Text, '.' ∉ word → (a ++ '.' :: b).map Char.toLower ≠ word := by
    rintro word hword rfl
    apply hword
    exact List.mem_map.mpr ⟨'.', by simp, by decide⟩
  have hinf := hword "inf".toList (by decide)
  have hinfinity := hword "infinity".toList (by decide)
  have hnan := hword "nan".toList (by decide)
  unfold readMagnitude
  simp only [hinf, hinfinity, hnan, decide_false, Bool.or_false, Bool.false_eq_true, if_false,
    readNumeral_point ha hb, Option.map_some, toBinary64_point a hb]

theorem readFloat_point : readFloat (a ++ '.' :: b) =
    .ok (Binary64.ofRatio (decimal (a ++ b)) (10 ^ b.length)) := by
  unfold readFloat
  simp only [trim_point ha hb, plainDigits_point ha hb, ungrouped_point ha hb, Option.bind_eq_bind,
    Option.bind_some, signed_append_of_isDigits ha, readMagnitude_point ha hb, Bool.false_and,
    Bool.false_eq_true, if_false]

end

end Number

/-! ## Float tokens -/

theorem Token.value_of_isFloat (t : Token) (hkind : t.kind = .float) (h : IsFloat t.lexeme) :
    t.value = .ok (.float (Binary64.ofRatio (numerator t.lexeme) (denominator t.lexeme))) := by
  have hread := Number.readFloat_point h.whole h.fraction
  rw [← h.form] at hread
  rw [value, hkind]
  simp only [hread]
  rfl

/-- A literal with zeros at its ends. -/
def padded (i j : Nat) (w : Text) : Text := List.replicate i '0' ++ w ++ List.replicate j '0'

section
variable {w : Text} (h : IsFloat w) (i j : Nat)

include h

theorem padded_eq : padded i j w =
    (List.replicate i '0' ++ wholePart w) ++ '.' :: (fractionPart w ++ List.replicate j '0') := by
  rw [padded]
  conv =>
    lhs
    rw [h.form]
  simp only [List.append_assoc, List.cons_append]

theorem isFloat_padded : IsFloat (padded i j w) := by
  rw [padded_eq h]
  refine .of_isDigits (h.whole.zeros i) ⟨List.append_ne_nil_of_left_ne_nil h.fraction.1 _, ?_⟩
  intro c hc
  rcases List.mem_append.mp hc with hc | hc
  · exact h.fraction.2 c hc
  · rw [List.eq_of_mem_replicate hc]
    rfl

theorem numerator_padded : numerator (padded i j w) = numerator w * 10 ^ j := by
  rw [padded_eq h, numerator, wholePart_point (h.whole.zeros i),
    fractionPart_point (h.whole.zeros i), List.append_assoc, decimal_zeros, ← List.append_assoc,
    decimal_append_zeros, numerator]

theorem denominator_padded : denominator (padded i j w) = denominator w * 10 ^ j := by
  rw [padded_eq h, denominator, fractionPart_point (h.whole.zeros i), List.length_append,
    List.length_replicate, pow_add, denominator]

end

namespace Reader

theorem Emits.isFloat {text : Text} {t : Token} (h : Emits text t) (hkind : t.kind = .float) :
    IsFloat t.lexeme := by
  have hword := h.isWord (by rw [hkind]; decide)
  rw [hkind] at hword
  exact hword.isFloat

/-- **Float literals and their values.**  A float token has digits on both sides of a point, and
its value is the number that the ratio they stand for is correctly rounded to.  A greater ratio
does not have a smaller value, since encodings count up with their numbers, and zeros at the ends
leave the value as it is. -/
theorem float_values {text text' : Text} {t t' : Token} (h : Emits text t)
    (h' : Emits text' t') (hkind : t.kind = .float) (hkind' : t'.kind = .float) :
    IsFloat t.lexeme ∧
    ∃ bits bits', t.value = .ok (.float bits) ∧ t'.value = .ok (.float bits') ∧
      Binary64.Rounds (numerator t.lexeme) (denominator t.lexeme) bits ∧
      (numerator t.lexeme * denominator t'.lexeme ≤ numerator t'.lexeme * denominator t.lexeme →
        bits ≤ bits') ∧
      ∀ i j, { t with lexeme := padded i j t.lexeme }.value = t.value := by
  have hfloat := h.isFloat hkind
  have hfloat' := h'.isFloat hkind'
  have hpos := denominator_pos t.lexeme
  have hpos' := denominator_pos t'.lexeme
  refine ⟨hfloat, _, _, t.value_of_isFloat hkind hfloat, t'.value_of_isFloat hkind' hfloat',
    (Binary64.rounds_iff hpos _ _).mpr rfl, Binary64.ofRatio_mono hpos hpos', ?_⟩
  intro i j
  have hratio : numerator (padded i j t.lexeme) * denominator t.lexeme =
      numerator t.lexeme * denominator (padded i j t.lexeme) := by
    rw [numerator_padded hfloat, denominator_padded hfloat, Nat.mul_assoc, Nat.mul_comm (10 ^ j)]
  rw [Token.value_of_isFloat { t with lexeme := padded i j t.lexeme } hkind
      (isFloat_padded hfloat i j), t.value_of_isFloat hkind hfloat,
    Binary64.ofRatio_congr (denominator_pos _) hpos hratio]

/-- Half way between two numbers a literal goes to the even one, and the next literal, which is
exact, stands for the number behind it. -/
theorem float_values_halfway :
    let t : Token := ⟨.float, "9007199254740993.0".toList, 1⟩
    let t' : Token := ⟨.float, "9007199254740994.0".toList, 1⟩
    Emits t.lexeme t ∧ Emits t'.lexeme t' ∧ t.kind = .float ∧ t'.kind = .float ∧
      t.value = .ok (.float 0x4340000000000000) ∧ t'.value = .ok (.float 0x4340000000000001) ∧
      Binary64.Rounds 90071992547409930 10 0x4340000000000000 ∧
      { t with lexeme := "009007199254740993.000".toList }.value = t.value := by
  intro t t'
  have hword : IsWord t.kind t.lexeme := ofWord?_eq_some_iff.mp (by decide)
  have hword' : IsWord t'.kind t'.lexeme := ofWord?_eq_some_iff.mp (by decide)
  have h := emits_of_isWord hword
  have h' := emits_of_isWord hword'
  obtain ⟨-, bits, bits', hvalue, -, hrounds, -, hzeros⟩ := float_values h h' rfl rfl
  have heven : t.value = .ok (.float 0x4340000000000000) := by decide +kernel
  have hexact : t'.value = .ok (.float 0x4340000000000001) := by decide +kernel
  have hbits : bits = 0x4340000000000000 :=
    Value.float.inj (Except.ok.inj (hvalue.symm.trans heven))
  have hnumerator : numerator t.lexeme = 90071992547409930 := by decide
  have hdenominator : denominator t.lexeme = 10 := by decide
  rw [hbits, hnumerator, hdenominator] at hrounds
  exact ⟨h, h', rfl, rfl, heven, hexact, hrounds, hzeros 2 2⟩

end Reader

end LoxLexer
