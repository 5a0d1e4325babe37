import LoxLexer.Proofs.SourceLines

/-!
# The line at an offset

An offset means a place of the text, whatever integer it is.  The line at the
offset is searched for around this place, backwards for the line feed that it
follows and onwards for the one that ends it, and it is the line whose number is
the number of line feeds in front of the place.

    lines[line feeds in front of n] = the line at n                   (lines_lineNumber)
    a line feed at n ends the last line of what is in front of it     (getLast?_lines_take)
    no line feed from m up to n → the same line number                (lineNumber_eq_of_between)
    all of this for every offset of a buffer                          (lineText_at_offset)
-/

namespace LoxLexer

namespace Text

/-- The place that an offset means: a negative one counts back from the end of the text, and one
past either end means this end. -/
def placeOf (length : Nat) (offset : Int) : Nat :=
  if 0 ≤ offset then (min offset length).toNat else (max (length + offset) 0).toNat

/-- The number of the line that a place is in, counted from zero. -/
def lineNumber (t : Text) (n : Nat) : Nat := (t.take n).count '\n'

theorem clampOffset_eq_placeOf (length : Nat) (offset : Int) :
    Cursor.clampOffset length offset = placeOf length offset := by
  unfold Cursor.clampOffset placeOf
  by_cases h : 0 ≤ offset
  · rw [if_neg (by omega), if_pos h]
    omega
  · rw [if_pos (by omega), if_neg h]
    omega

theorem placeOf_of_le {length : Nat} {offset : Int} (h : length ≤ offset) :
    placeOf length offset = length := by
  rw [placeOf, if_pos (by omega)]
  omega

section
variable (t : Text)

/-- **The line at a place** is the one that the place's line number counts. -/
theorem lines_lineNumber (offset : Int) :
    t.lines[t.lineNumber (placeOf t.length offset)]? = some (Cursor.lineTextAt t offset) := by
  have hline := (Cursor.atPosition t (placeOf t.length offset)).lines_count_seen
  rw [Cursor.text_atPosition] at hline
  rw [Cursor.lineTextAt_eq, clampOffset_eq_placeOf, ← hline, lineNumber, Cursor.atPosition,
    List.count_reverse]

variable {t}

/-- A line feed ends the last line of what is in front of it. -/
theorem getLast?_lines_take {n : Nat} (h : t[n]? = some '\n') :
    (lines (t.take n)).getLast? = t.lines[t.lineNumber n]? := by
  obtain ⟨hlt, hfeed⟩ := List.getElem?_eq_some_iff.mp h
  have hcut : t = t.take n ++ '\n' :: t.drop (n + 1) := by
    rw [← hfeed, List.getElem_cons_drop, List.take_append_drop]
  have hlines : t.lines = lines (t.take n) ++ lines (t.drop (n + 1)) := by
    conv =>
      lhs
      rw [hcut, lines, pieces_append_sep]
    rfl
  have hnumber : t.lineNumber n < (lines (t.take n)).length := by
    rw [lines, length_pieces]
    exact Nat.lt_succ_self _
  rw [hlines, List.getElem?_append_left hnumber, getLast?_lines_eq_getElem?]
  rfl

/-- Only line feeds part lines. -/
theorem lineNumber_eq_of_between {m n : Nat}
    (h : ∀ i, min m n ≤ i → i < max m n → t[i]? ≠ some '\n') : t.lineNumber m = t.lineNumber n := by
  have onwards : ∀ {m n : Nat}, m ≤ n → (∀ i, m ≤ i → i < n → t[i]? ≠ some '\n') →
      t.lineNumber m = t.lineNumber n := by
    intro m n hle h
    have hbetween : '\n' ∉ (t.drop m).take (n - m) := by
      intro hmem
      obtain ⟨i, hi⟩ := List.mem_iff_getElem?.mp hmem
      rw [List.getElem?_take] at hi
      split at hi
      · rw [List.getElem?_drop] at hi
        exact h (m + i) (Nat.le_add_right m i) (by omega) hi
      · cases hi
    have htake : t.take n = t.take m ++ (t.drop m).take (n - m) := by
      rw [← List.take_add, Nat.add_sub_cancel' hle]
    rw [lineNumber, lineNumber, htake, List.count_append, List.count_eq_zero.mpr hbetween,
      Nat.add_zero]
  rcases Nat.le_total m n with hle | hle
  · rw [Nat.min_eq_left hle, Nat.max_eq_right hle] at h
    exact onwards hle h
  · rw [Nat.min_eq_right hle, Nat.max_eq_left hle] at h
    exact (onwards hle h).symm

end

end Text

namespace Buffer

/-- **The line at an offset.**  For every offset, or the place of the cursor without one, the line
is the one whose number is the number of line feeds in front of the place that is meant.  It has no
line feed itself.  On a line feed it is the line that this one ends, at or past the end it is the
last one, and it is the same for any two offsets that have no line feed between them. -/
theorem lineText_at_offset (b : Buffer) (offset : Option Int) :
    let o := offset.getD b.position
    let place := Text.placeOf b.text.length o
    let line := b.lineText offset
    b.text.lines[(b.text.take place).count '\n']? = some line ∧
      '\n' ∉ line ∧
      (b.text[place]? = some '\n' → (Text.lines (b.text.take place)).getLast? = some line) ∧
      (b.text.length ≤ o → b.text.lines.getLast? = some line) ∧
      ∀ offset' : Option Int,
        let place' := Text.placeOf b.text.length (offset'.getD b.position)
        (∀ i, min place place' ≤ i → i < max place place' → b.text[i]? ≠ some '\n') →
          b.lineText offset' = line := by
  intro o place line
  have hline : ∀ offset' : Option Int,
      b.text.lines[b.text.lineNumber (Text.placeOf b.text.length (offset'.getD b.position))]? =
        some (b.lineText offset') := by
    intro offset'
    exact b.text.lines_lineNumber _
  refine ⟨hline offset, ?_, ?_, ?_, ?_⟩
  · exact Text.not_mem_of_mem_pieces (List.mem_of_getElem? (hline offset))
  · intro hfeed
    rw [Text.getLast?_lines_take hfeed]
    exact hline offset
  · intro hend
    have hplace : place = b.text.length := Text.placeOf_of_le hend
    have hcount : b.text.lineNumber place = b.text.count '\n' := by
      rw [Text.lineNumber, hplace, List.take_length]
    rw [Text.getLast?_lines_eq_getElem?, ← hcount]
    exact hline offset
  · intro offset' place' hbetween
    have hnumber : b.text.lineNumber place = b.text.lineNumber place' :=
      Text.lineNumber_eq_of_between hbetween
    have hline' : b.text.lines[b.text.lineNumber place']? = some (b.lineText offset') :=
      hline offset'
    rw [← hnumber] at hline'
    exact Option.some.inj (hline'.symm.trans (hline offset))

/-- From the end back to a line feed, which ends the line that the cursor is in. -/
theorem lineText_at_offset_lineFeed :
    let b := ofText "ab\ncd".toList
    b.text[Text.placeOf b.text.length (-3)]? = some '\n' ∧ b.lineText (some (-3)) = "ab".toList ∧
      (Text.lines (b.text.take (Text.placeOf b.text.length (-3)))).getLast? =
        some (b.lineText (some (-3))) ∧
      b.lineText none = b.lineText (some (-3)) := by
  intro b
  obtain ⟨-, -, hfeed, -, hsame⟩ := lineText_at_offset b (some (-3))
  have hat : b.text[Text.placeOf b.text.length (-3)]? = some '\n' := by decide +kernel
  have hbetween : ∀ i, 0 ≤ i → i < 2 → b.text[i]? ≠ some '\n' := by decide +kernel
  exact ⟨hat, by decide +kernel, hfeed hat, hsame none hbetween⟩

end Buffer

end LoxLexer
