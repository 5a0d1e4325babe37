import LoxLexer.Text.Basic

/-!
# Searching a text

The places of a text are counted from zero.  A search onwards from a place may
find the place itself; a search backwards from it begins in front of it.

    from n up to the first c: what is in front of c in `t.drop n`        (slice_firstFrom?)
    from behind the last c up to n: the same of `t.take n`, backwards    (slice_lastBefore?)
-/

namespace LoxLexer.Text

/-! ## Algorithm -/

/-- The first place of a character, from place `n` on. -/
def firstFrom? (t : Text) (c : Char) (n : Nat) : Option Nat :=
  ((t.drop n).idxOf? c).map (n + ·)

/-- The last place of a character in front of place `n`. -/
def lastBefore? (t : Text) (c : Char) (n : Nat) : Option Nat :=
  ((t.take n).reverse.idxOf? c).map ((t.take n).length - 1 - ·)

/-- What stands from one place up to another. -/
def slice (t : Text) (start stop : Nat) : Text := (t.take stop).drop start

/-! ## Lemmas -/

theorem slice_append_slice (t : Text) {start n stop : Nat} (h : start ≤ n) (h' : n ≤ stop) :
    t.slice start n ++ t.slice n stop = t.slice start stop := by
  have hlength : stop - start = (n - start) + (stop - n) := by omega
  have hplace : start + (n - start) = n := by omega
  rw [slice, slice, slice, List.drop_take, List.drop_take, List.drop_take, hlength, List.take_add,
    List.drop_drop, hplace]

/-- The characters in front of the first `c` are as many as its place says. -/
theorem takeWhile_bne_eq_take (c : Char) (t : Text) :
    t.takeWhile (· != c) = t.take ((t.idxOf? c).getD t.length) := by
  induction t with
  | nil => rfl
  | cons d t ih =>
    by_cases h : d = c
    · subst h
      simp [List.idxOf?_cons]
    · rw [List.takeWhile_cons_of_pos (by simpa using h), ih, List.idxOf?_cons]
      cases ht : t.idxOf? c <;> simp [h]

theorem slice_firstFrom? (t : Text) (c : Char) (n : Nat) :
    t.slice n ((t.firstFrom? c n).getD t.length) = (t.drop n).takeWhile (· != c) := by
  rw [takeWhile_bne_eq_take, slice, List.drop_take, firstFrom?]
  cases (t.drop n).idxOf? c with
  | none => simp
  | some i => simp

theorem slice_lastBefore? (t : Text) (c : Char) (n : Nat) :
    t.slice ((t.lastBefore? c n).elim 0 (· + 1)) n =
      ((t.take n).reverse.takeWhile (· != c)).reverse := by
  rw [takeWhile_bne_eq_take, List.take_reverse, List.reverse_reverse, slice, lastBefore?]
  cases h : (t.take n).reverse.idxOf? c with
  | none => simp
  | some i =>
    obtain ⟨hlt, -⟩ := List.idxOf?_eq_some_iff.mp h
    rw [List.length_reverse] at hlt
    have hplace : (t.take n).length - 1 - i + 1 = (t.take n).length - i := by
      omega
    simp only [Option.map_some, Option.elim_some, Option.getD_some, hplace]

theorem elim_lastBefore?_le {t : Text} {c : Char} {n : Nat} (h : n ≤ t.length) :
    (t.lastBefore? c n).elim 0 (· + 1) ≤ n := by
  cases hlast : t.lastBefore? c n with
  | none => exact Nat.zero_le n
  | some i =>
    obtain ⟨j, hj, rfl⟩ := Option.map_eq_some_iff.mp hlast
    obtain ⟨hlt, -⟩ := List.idxOf?_eq_some_iff.mp hj
    rw [List.length_reverse] at hlt
    have hlength : (t.take n).length = n := List.length_take_of_le h
    rw [Option.elim_some]
    omega

theorem le_getD_firstFrom? {t : Text} {c : Char} {n : Nat} (h : n ≤ t.length) :
    n ≤ (t.firstFrom? c n).getD t.length := by
  rw [firstFrom?]
  cases (t.drop n).idxOf? c with
  | none => exact h
  | some i => exact Nat.le_add_right n i

end LoxLexer.Text
