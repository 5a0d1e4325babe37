import LoxLexer.Text.Basic
import LoxLexer.Text.Ranges

/-!
# Blank characters

Two sets of blanks: those that surround a word in a setting, and those that may
surround a number.  They differ in the four information separators U+001C to
U+001F, which no number may have beside it.

    no c ∈ t is in p → trim p t = t                             (trim_of_forall)
-/

namespace LoxLexer.Text

/-! ## Algorithm -/

def blanks : List (Nat × Nat) :=
  [(0x9, 0xD), (0x1C, 0x20), (0x85, 0x85), (0xA0, 0xA0), (0x1680, 0x1680), (0x2000, 0x200A),
   (0x2028, 0x2029), (0x202F, 0x202F), (0x205F, 0x205F), (0x3000, 0x3000)]

def isBlank (c : Char) : Bool := Ranges.covers blanks c.toNat

def isNumberBlank (c : Char) : Bool := isBlank c && !(0x1C ≤ c.toNat && c.toNat ≤ 0x1F)

/-- A text without the characters of a class at its two ends. -/
def trim (p : Char → Bool) (t : Text) : Text :=
  ((t.dropWhile p).reverse.dropWhile p).reverse

/-! ## Lemmas -/

section
variable {p : Char → Bool} {t : Text} (h : ∀ c ∈ t, p c = false)

include h

theorem dropWhile_of_forall : t.dropWhile p = t := by
  cases t with
  | nil => rfl
  | cons c t =>
    apply List.dropWhile_cons_of_neg
    rw [h c List.mem_cons_self]
    exact Bool.false_ne_true

/-- Nothing is lost of a text without such characters. -/
theorem trim_of_forall : trim p t = t := by
  have hreverse : ∀ c ∈ t.reverse, p c = false := by
    intro c hc
    exact h c (List.mem_reverse.mp hc)
  rw [trim, dropWhile_of_forall h, dropWhile_of_forall hreverse, List.reverse_reverse]

end

end LoxLexer.Text
