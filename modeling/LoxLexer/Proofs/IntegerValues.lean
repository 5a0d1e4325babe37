import Mathlib.Data.Nat.Digits.Lemmas
import LoxLexer.Proofs.LongestMatch
import LoxLexer.Proofs.Progress

/-!
# The values of integer literals

The lexeme of an integer token is made of ASCII digits, whatever was done with
the reader that gave the token.  Its value is the number that the digits stand
for, and it has none if there are more digits than an integer is read from.
Zeros in front never change the number, but they count as digits.

    decimal w = decimal w' ↔ the same digits behind the zeros        (decimal_eq_iff)
    digits are read as their number, up to a limit                   (readInteger_of_isDigits)
    integer tokens have lexemes of digits                            (Emits.isDigits)
    the values of any two integer tokens                             (integer_values)
    a token without a value                                          (integer_without_value)
-/

namespace LoxLexer

/-! ## Numbers and their digits -/

/-- The number that a digit stands for. -/
def digitValue (c : Char) : Nat := c.toNat - '0'.toNat

/-- The number that digits stand for.  The last one counts ones, and every other one ten times
what the next one counts. -/
def decimal (w : Text) : Nat := ((w.map digitValue).reverse.mapIdx fun i d => d * 10 ^ i).sum

/-- What is behind the zeros in front. -/
def significant (w : Text) : Text := w.dropWhile (· = '0')

section
variable {c : Char}

theorem toNat_of_isDigit (h : c.isDigit = true) : 48 ≤ c.toNat ∧ c.toNat ≤ 57 := by
  simp only [Char.isDigit, Bool.and_eq_true, decide_eq_true_eq, UInt32.le_iff_toNat_le] at h
  exact h

theorem digitValue_lt (h : c.isDigit = true) : digitValue c < 10 := by
  have hc := toNat_of_isDigit h
  show c.toNat - 48 < 10
  omega

theorem ofNat_digitValue (h : c.isDigit = true) : Char.ofNat (digitValue c + 48) = c := by
  have hc := toNat_of_isDigit h
  have hsum : digitValue c + 48 = c.toNat := by
    show c.toNat - 48 + 48 = c.toNat
    omega
  rw [hsum, Char.ofNat_toNat]

end

theorem decimal_eq_ofDigits (w : Text) : decimal w = Nat.ofDigits 10 (w.map digitValue).reverse :=
  (Nat.ofDigits_eq_sum_mapIdx 10 _).symm

theorem ofDigits_digitValues (w : Text) : Number.ofDigits (w.map digitValue) = decimal w := by
  rw [decimal_eq_ofDigits, Nat.ofDigits_eq_foldr, Number.ofDigits, List.foldl_eq_foldr_reverse]
  simp only [Nat.cast_id, Nat.add_comm]

theorem decimal_zeros (k : Nat) (w : Text) : decimal (List.replicate k '0' ++ w) = decimal w := by
  have hzeros : (List.replicate k '0').map digitValue = List.replicate k 0 := List.map_replicate
  rw [decimal_eq_ofDigits, decimal_eq_ofDigits, List.map_append, hzeros, List.reverse_append,
    List.reverse_replicate, Nat.ofDigits_append_replicate_zero]

/-- Zeros behind the digits count them ten times each. -/
theorem decimal_append_zeros (w : Text) (k : Nat) :
    decimal (w ++ List.replicate k '0') = decimal w * 10 ^ k := by
  have hzeros : (List.replicate k '0').map digitValue = List.replicate k 0 := List.map_replicate
  rw [decimal_eq_ofDigits, decimal_eq_ofDigits, List.map_append, hzeros, List.reverse_append,
    List.reverse_replicate, Nat.ofDigits_append, Nat.ofDigits_replicate_zero, List.length_replicate,
    Nat.zero_add, Nat.mul_comm]

theorem exists_zeros (w : Text) : ∃ k, w = List.replicate k '0' ++ significant w := by
  have hzeros : w.takeWhile (· = '0') = List.replicate (w.takeWhile (· = '0')).length '0' := by
    apply List.eq_replicate_of_mem
    intro c hc
    simpa using List.all_eq_true.mp List.all_takeWhile c hc
  refine ⟨(w.takeWhile (· = '0')).length, ?_⟩
  rw [← hzeros]
  exact List.takeWhile_append_dropWhile.symm

theorem decimal_significant (w : Text) : decimal (significant w) = decimal w := by
  obtain ⟨k, hk⟩ := exists_zeros w
  conv =>
    rhs
    rw [hk, decimal_zeros]

section
variable {w w' : Text} (h : ∀ c ∈ w, c.isDigit = true)

include h

theorem ofNat_digitValues : (w.map digitValue).map (fun d => Char.ofNat (d + 48)) = w := by
  rw [List.map_map]
  conv =>
    rhs
    rw [← List.map_id w]
  apply List.map_congr_left
  intro c hc
  exact ofNat_digitValue (h c hc)

theorem isDigit_of_mem_significant : ∀ c ∈ significant w, c.isDigit = true := by
  intro c hc
  exact h c ((List.dropWhile_suffix _).subset hc)

/-- The significant digits can be told from the number. -/
theorem digits_decimal : Nat.digits 10 (decimal w) = ((significant w).map digitValue).reverse := by
  have hdigit := isDigit_of_mem_significant h
  rw [← decimal_significant, decimal_eq_ofDigits]
  apply Nat.digits_ofDigits 10 (by decide)
  · intro d hd
    obtain ⟨c, hc, rfl⟩ := List.mem_map.mp (List.mem_reverse.mp hd)
    exact digitValue_lt (hdigit c hc)
  · -- the first digit counts most, and it would be a zero
    intro hne hzero
    have hsome : significant w ≠ [] := by
      intro hnil
      apply hne
      rw [hnil]
      rfl
    rw [List.getLast_reverse, List.head_map] at hzero
    have hhead := ofNat_digitValue (hdigit _ (List.head_mem hsome))
    rw [hzero] at hhead
    have hfirst := List.head_dropWhile_not (fun c => decide (c = '0')) hsome
    exact of_decide_eq_false hfirst hhead.symm

/-- **Numbers and their digits.**  Digits stand for the same number when they are the same behind
the zeros in front. -/
theorem decimal_eq_iff (h' : ∀ c ∈ w', c.isDigit = true) :
    decimal w = decimal w' ↔ significant w = significant w' := by
  constructor
  · intro heq
    have hdigits := congrArg (Nat.digits 10) heq
    rw [digits_decimal h, digits_decimal h', List.reverse_inj] at hdigits
    rw [← ofNat_digitValues (isDigit_of_mem_significant h), hdigits,
      ofNat_digitValues (isDigit_of_mem_significant h')]
  · intro heq
    rw [← decimal_significant, heq, decimal_significant]

end

/-! ## Reading digits -/

namespace Number

theorem not_isNumberBlank_of_isDigit {c : Char} (h : c.isDigit = true) :
    Text.isNumberBlank c = false := by
  have hblank : ∀ n, n < 58 → 48 ≤ n → Ranges.covers Text.blanks n = false := by decide
  obtain ⟨hlow, hhigh⟩ := toNat_of_isDigit h
  rw [Text.isNumberBlank, Text.isBlank, hblank c.toNat (by omega) hlow, Bool.false_and]

section
variable {w : Text} (h : IsDigits w)

include h

theorem dropWhile_blank_of_isDigits : w.dropWhile Text.isNumberBlank = w := by
  apply Text.dropWhile_of_forall
  intro c hc
  exact not_isNumberBlank_of_isDigit (h.2 c hc)

theorem signed_append_of_isDigits (s : Text) : signed (w ++ s) = (false, w ++ s) := by
  obtain ⟨c, r, rfl⟩ := List.exists_cons_of_ne_nil h.1
  have hc := h.2 c List.mem_cons_self
  rw [List.cons_append]
  unfold signed
  split
  · next heq =>
    rw [(List.cons.inj heq).1] at hc
    exact absurd hc (by decide)
  · next heq =>
    rw [(List.cons.inj heq).1] at hc
    exact absurd hc (by decide)
  · rfl

theorem signed_of_isDigits : signed w = (false, w) := by
  have hsigned := signed_append_of_isDigits h []
  rwa [List.append_nil] at hsigned

theorem digitValues_of_isDigits : digitValues w = w.map digitValue := by
  rw [digitValues, ← List.filterMap_eq_map]
  apply List.filterMap_congr
  intro c hc
  exact Text.decimalValue?_of_isDigit (h.2 c hc)

theorem isGrouped_of_isDigits : isGrouped w = true := by
  have hunderscore : '_' ∉ w := by
    intro hmem
    exact absurd (h.2 '_' hmem) (by decide)
  rw [isGrouped, Text.pieces_of_not_mem hunderscore]
  simpa using h.1

/-- Digits are read as their number, unless there are too many of them. -/
theorem readInteger_of_isDigits :
    readInteger w =
      if digitLimit < w.length then .error (.tooManyDigits w.length) else .ok (decimal w) := by
  have hrun : ∀ c ∈ w, (isDecimal c || decide (c = '_')) = true := by
    intro c hc
    rw [isDecimal, Text.decimalValue?_of_isDigit (h.2 c hc)]
    rfl
  have htake : w.takeWhile (fun c => isDecimal c || decide (c = '_')) = w :=
    List.takeWhile_eq_self_iff.mpr hrun
  have hdrop : w.dropWhile (fun c => isDecimal c || decide (c = '_')) = [] :=
    List.dropWhile_eq_nil_iff.mpr hrun
  unfold readInteger
  simp only [dropWhile_blank_of_isDigits h, signed_of_isDigits h, htake, hdrop,
    isGrouped_of_isDigits h, digitValues_of_isDigits h, List.length_map, ofDigits_digitValues]
  rfl

end

end Number

/-! ## Integer tokens -/

/-- A number is spelt as a word. -/
theorem Spelling.isWord {logical : Bool} {final : Prop} {k : Kind} {x w : Text}
    (h : Spelling logical final k x w) (hk : k.isNumber = true) : IsWord k x := by
  have hp : ∀ p ∈ Kind.punctuation, p.2.isNumber = false := by decide
  have hc : ∀ p ∈ Kind.comparisons, p.2.1.isNumber = false ∧ p.2.2.isNumber = false := by decide
  have hl : ∀ p ∈ Kind.logical, p.2.isNumber = false := by decide
  rw [← Bool.not_eq_false] at hk
  cases h with
  | punctuation h => exact absurd (hp _ h) hk
  | single h => exact absurd (hc _ h).1 hk
  | double h => exact absurd (hc _ h).2 hk
  | operator _ h => exact absurd (hl _ h) hk
  | divide | string _ | lineComment _ _ | blockComment _ => exact absurd rfl hk
  | word h => exact h

theorem IsWord.isDigits {w : Text} (h : IsWord .integer w) : IsDigits w := by
  have hk : ∀ p ∈ Kind.keywords, p.2 ≠ .integer := by decide
  cases h with
  | keyword h => exact absurd rfl (hk _ h)
  | integer h => exact h

theorem Token.value_of_isDigits (t : Token) (hkind : t.kind = .integer) (h : IsDigits t.lexeme) :
    t.value = if Number.digitLimit < t.lexeme.length then .error (.tooManyDigits t.lexeme.length)
      else .ok (.integer (decimal t.lexeme)) := by
  rw [value, hkind]
  simp only [Number.readInteger_of_isDigits h]
  split
  · rfl
  · rfl

theorem IsDigits.zeros {w : Text} (h : IsDigits w) (k : Nat) :
    IsDigits (List.replicate k '0' ++ w) := by
  refine ⟨List.append_ne_nil_of_right_ne_nil _ h.1, ?_⟩
  intro c hc
  rcases List.mem_append.mp hc with hc | hc
  · rw [List.eq_of_mem_replicate hc]
    rfl
  · exact h.2 c hc

namespace Reader

/-- Some reader of a text gives this token, under some settings and behind some history. -/
def Emits (text : Text) (t : Token) : Prop :=
  ∃ source first logical history, .ok t ∈ ((start source first logical text).run history).1

/-- Every answer of a history is the answer to a call. -/
theorem Settled.exists_call {s : Reader} (h : s.Settled) {history : List Lexer.Action} {a : Answer}
    (ha : a ∈ (s.run history).1) : ∃ s' : Reader, s'.Settled ∧ s'.call.1 = a := by
  induction history generalizing s with
  | nil => cases ha
  | cons action actions ih =>
    have hrun : (s.run (action :: actions)).1 =
        (s.act action).1 ++ ((s.act action).2.run actions).1 := rfl
    rw [hrun, List.mem_append] at ha
    rcases ha with ha | ha
    · cases action with
      | next => exact ⟨s, h, (List.mem_singleton.mp ha).symm⟩
      | setLogical logical => cases ha
    · exact ih (h.act action).1 ha

theorem Emits.isWord {text : Text} {t : Token} (h : Emits text t)
    (hkind : t.kind.isNumber = true) : IsWord t.kind t.lexeme := by
  obtain ⟨source, first, logical, history, hmem⟩ := h
  obtain ⟨s, hsettled, hcall⟩ := (settled_start source first logical text).exists_call hmem
  have hsome : t.kind ≠ .endOfInput := by
    intro hend
    rw [hend] at hkind
    exact absurd hkind (by decide)
  exact (Lexer.spelling_taken (hsettled.next_of_call_ok hcall) hsome).isWord hkind

theorem Emits.isDigits {text : Text} {t : Token} (h : Emits text t) (hkind : t.kind = .integer) :
    IsDigits t.lexeme := by
  have hword := h.isWord (by rw [hkind]; decide)
  rw [hkind] at hword
  exact hword.isDigits

/-- **Integer literals and their values.**  The value of an integer token is the number that its
digits stand for, if they are not too many, and else there is none.  Zeros that are put in front of
the digits leave the value as it is, and two tokens have the same value when their digits are the
same behind the zeros in front. -/
theorem integer_values {text text' : Text} {t t' : Token} (h : Emits text t)
    (h' : Emits text' t') (hkind : t.kind = .integer) (hkind' : t'.kind = .integer) :
    (t.lexeme.length ≤ Number.digitLimit → t.value = .ok (.integer (decimal t.lexeme))) ∧
    (Number.digitLimit < t.lexeme.length →
      t.value = .error (.tooManyDigits t.lexeme.length)) ∧
    (∀ k, k + t.lexeme.length ≤ Number.digitLimit →
      { t with lexeme := List.replicate k '0' ++ t.lexeme }.value = t.value) ∧
    (t.lexeme.length ≤ Number.digitLimit → t'.lexeme.length ≤ Number.digitLimit →
      (t.value = t'.value ↔ significant t.lexeme = significant t'.lexeme)) := by
  have hdigits := h.isDigits hkind
  have hdigits' := h'.isDigits hkind'
  refine ⟨?_, ?_, ?_, ?_⟩
  · intro hle
    rw [t.value_of_isDigits hkind hdigits, if_neg (Nat.not_lt.mpr hle)]
  · intro hlt
    rw [t.value_of_isDigits hkind hdigits, if_pos hlt]
  · intro k hle
    have hlength : (List.replicate k '0' ++ t.lexeme).length = k + t.lexeme.length := by
      rw [List.length_append, List.length_replicate]
    have hzeros : ¬ Number.digitLimit < (List.replicate k '0' ++ t.lexeme).length := by
      omega
    have hwithout : ¬ Number.digitLimit < t.lexeme.length := by
      omega
    rw [Token.value_of_isDigits { t with lexeme := List.replicate k '0' ++ t.lexeme } hkind
      (hdigits.zeros k), t.value_of_isDigits hkind hdigits, if_neg hzeros, if_neg hwithout,
      decimal_zeros]
  · intro hle hle'
    rw [t.value_of_isDigits hkind hdigits, t'.value_of_isDigits hkind' hdigits',
      if_neg (Nat.not_lt.mpr hle), if_neg (Nat.not_lt.mpr hle'),
      ← decimal_eq_iff hdigits.2 hdigits'.2]
    simp only [Except.ok.injEq, Value.integer.injEq, Nat.cast_inj]

/-- A word that is alone in a source is a token. -/
theorem emits_of_isWord {k : Kind} {w : Text} (h : IsWord k w) : Emits w ⟨k, w, 1⟩ := by
  have hread : ∃ c r, w ++ [] = c :: r ∧ Lexed.read true c r = ⟨.token k w, w, []⟩ :=
    read_of_spelling (.word h) (by simp)
  obtain ⟨c, r, hw, hread⟩ := hread
  rw [List.append_nil] at hw
  have hspace : isSpace c = false := by
    obtain ⟨d, s, hd, hword⟩ := h.exists_cons
    rw [hd] at hw
    rw [← (List.cons.inj hw).1]
    exact not_isSpace_of_isWordChar hword
  have hrest : (start [] 1 true w).lexer.cursor.rest = [] ++ c :: r := hw
  obtain ⟨-, hnext, -⟩ := Lexer.next_of_read hrest (by simp) hspace hread
  have hwritable : Number.isWritable 1 = true := by decide +kernel
  have hcall : (start [] 1 true w).call.1 = .ok ⟨k, w, 1⟩ := by
    rw [(settled_start [] 1 true w).answer_of_not_done rfl, hnext]
    exact logged_of_writable hwritable
  refine ⟨[], 1, true, [.next], ?_⟩
  rw [← hcall]
  exact List.mem_singleton.mpr rfl

/-- Digits that are alone in a source are an integer token. -/
theorem emits_of_isDigits {w : Text} (h : IsDigits w) : Emits w ⟨.integer, w, 1⟩ :=
  emits_of_isWord (.integer h)

/-- Two ways to write seven, one of them behind zeros. -/
theorem integer_values_seven :
    let t : Token := ⟨.integer, "007".toList, 1⟩
    let t' : Token := ⟨.integer, "7".toList, 1⟩
    Emits t.lexeme t ∧ Emits t'.lexeme t' ∧ t.kind = .integer ∧ t'.kind = .integer ∧
      t.value = .ok (.integer 7) ∧ t.value = t'.value := by
  intro t t'
  have hdigits : IsDigits t.lexeme := isIntegerText_iff.mp (by decide)
  have hdigits' : IsDigits t'.lexeme := isIntegerText_iff.mp (by decide)
  have h := emits_of_isDigits hdigits
  have h' := emits_of_isDigits hdigits'
  obtain ⟨hvalue, -, -, heq⟩ := integer_values h h' rfl rfl
  have hle : t.lexeme.length ≤ Number.digitLimit := by decide
  have hle' : t'.lexeme.length ≤ Number.digitLimit := by decide
  exact ⟨h, h', rfl, rfl, hvalue hle, (heq hle hle').mpr (by decide)⟩

/-- A literal with one digit too many is a token all the same. -/
theorem integer_without_value :
    let t : Token := ⟨.integer, List.replicate 4301 '1', 1⟩
    Emits t.lexeme t ∧ t.value = .error (.tooManyDigits 4301) := by
  intro t
  have hlength : t.lexeme.length = 4301 := List.length_replicate
  have hdigits : IsDigits t.lexeme := by
    refine ⟨List.ne_nil_of_length_pos (by omega), ?_⟩
    intro c hc
    rw [List.eq_of_mem_replicate hc]
    rfl
  have hlt : Number.digitLimit < t.lexeme.length := by
    rw [hlength]
    decide
  refine ⟨emits_of_isDigits hdigits, ?_⟩
  rw [t.value_of_isDigits rfl hdigits, if_pos hlt, hlength]

end Reader

end LoxLexer
