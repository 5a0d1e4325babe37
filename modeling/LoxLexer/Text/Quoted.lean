import LoxLexer.Text.Basic
import LoxLexer.Text.Printable

/-!
# Quoted text

A text on one line, between quotes, from which it can be read back.  The quote
is an apostrophe unless the text has apostrophes and no double quotes.  The
quote and the backslash are written after a backslash; line feed, carriage
return and tab have letters; any other character that is not printable is
written by its code point in two, four or eight hexadecimal digits.

    '\n' ∉ quoted t                                            (lineFeed_not_mem_quoted)
-/

namespace LoxLexer.Text

/-! ## Algorithm -/

/-- The `n` lowest hexadecimal digits of `v`, highest first. -/
def hexDigits : Nat → Nat → Text
  | 0, _ => []
  | n + 1, v => (v >>> (4 * n) % 16).digitChar :: hexDigits n v

/-- The form of one character between quotes `q`. -/
def escape (q c : Char) : Text :=
  if c = q then ['\\', c]
  else if c = '\\' then ['\\', '\\']
  else if c = '\n' then ['\\', 'n']
  else if c = '\r' then ['\\', 'r']
  else if c = '\t' then ['\\', 't']
  else if isPrintable c then [c]
  else if c.toNat < 0x100 then '\\' :: 'x' :: hexDigits 2 c.toNat
  else if c.toNat < 0x10000 then '\\' :: 'u' :: hexDigits 4 c.toNat
  else '\\' :: 'U' :: hexDigits 8 c.toNat

def quoteMark (t : Text) : Char :=
  if t.contains '\'' && !t.contains '"' then '"' else '\''

def quoted (t : Text) : Text :=
  quoteMark t :: (t.flatMap (escape (quoteMark t)) ++ [quoteMark t])

/-! ## Lemmas -/

theorem quoteMark_eq (t : Text) : quoteMark t = '"' ∨ quoteMark t = '\'' := by
  unfold quoteMark
  split
  · exact Or.inl rfl
  · exact Or.inr rfl

theorem digitChar_ne_lineFeed {v : Nat} (h : v < 16) : v.digitChar ≠ '\n' := by
  have : ∀ v, v < 16 → Nat.digitChar v ≠ '\n' := by decide
  exact this v h

theorem lineFeed_not_mem_hexDigits (n v : Nat) : '\n' ∉ hexDigits n v := by
  induction n with
  | zero => simp [hexDigits]
  | succ n ih =>
    rw [hexDigits, List.mem_cons, not_or]
    exact ⟨(digitChar_ne_lineFeed (Nat.mod_lt _ (by decide))).symm, ih⟩

theorem lineFeed_not_mem_escape {q : Char} (hq : q ≠ '\n') (c : Char) : '\n' ∉ escape q c := by
  have hd := fun n => lineFeed_not_mem_hexDigits n c.toNat
  unfold escape
  split
  · next h => subst h; simp [hq.symm]
  · split
    · simp
    · split
      · simp
      · next hn =>
        repeat' split
        all_goals simp [hd, Ne.symm hn]

/-- Quoted text is one line. -/
theorem lineFeed_not_mem_quoted (t : Text) : '\n' ∉ quoted t := by
  have hq : quoteMark t ≠ '\n' := by
    rcases quoteMark_eq t with h | h <;> rw [h] <;> decide
  simp only [quoted, List.mem_cons, List.mem_append, List.mem_flatMap, List.not_mem_nil, or_false,
    not_or, not_exists, not_and]
  exact ⟨hq.symm, fun c _ => lineFeed_not_mem_escape hq c, hq.symm⟩

end LoxLexer.Text
