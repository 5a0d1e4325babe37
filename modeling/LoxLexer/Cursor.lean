import LoxLexer.Text.Search

/-!
# Cursors

A cursor is a place in a text: the characters before it, last one first, and the
characters after it.  The whole text can always be read off, so moving a cursor
cannot lose a character.

    c.rest = taken ++ rest → (c.advance taken rest).text = c.text     (text_advance)
    c.position + c.remaining = c.text.length                          (position_add_remaining)
    '\n' ∉ c.lineText                                                 (lineFeed_not_mem_lineText)
    lineTextAt t n is the line that a cursor at place n is in         (lineTextAt_eq)
-/

namespace LoxLexer

structure Cursor where
  seen : Text
  rest : Text
  deriving DecidableEq, Repr

namespace Cursor

/-! ## Algorithm -/

/-- The front of a text. -/
def ofText (t : Text) : Cursor := ⟨[], t⟩

def text (c : Cursor) : Text := c.seen.reverse ++ c.rest

def position (c : Cursor) : Nat := c.seen.length

def remaining (c : Cursor) : Nat := c.rest.length

def atEnd (c : Cursor) : Bool := c.rest.isEmpty

/-- The cursor behind `taken`, which stands in front of `rest`. -/
def advance (c : Cursor) (taken rest : Text) : Cursor := ⟨taken.reverse ++ c.seen, rest⟩

/-- The line that the cursor is in, without its line feed. -/
def lineText (c : Cursor) : Text :=
  (c.seen.takeWhile (· != '\n')).reverse ++ c.rest.takeWhile (· != '\n')

/-- The cursor at a place of a text. -/
def atPosition (t : Text) (n : Nat) : Cursor := ⟨(t.take n).reverse, t.drop n⟩

/-- Places past the end mean the end; negative ones count back from the end. -/
def clampOffset (length : Nat) (offset : Int) : Nat :=
  if offset < 0 then (length + offset).toNat else min offset.toNat length

/-- The line of a text at an offset: from behind the last line feed before it up to the first one
that is not before it. -/
def lineTextAt (t : Text) (offset : Int) : Text :=
  let place := clampOffset t.length offset
  let start := (t.lastBefore? '\n' place).elim 0 (· + 1)
  let stop := (t.firstFrom? '\n' place).getD t.length
  t.slice start stop

/-! ## Lemmas -/

theorem text_advance {c : Cursor} {taken rest : Text} (h : c.rest = taken ++ rest) :
    (c.advance taken rest).text = c.text := by
  simp [text, advance, h]

theorem position_advance (c : Cursor) (taken rest : Text) :
    (c.advance taken rest).position = c.position + taken.length := by
  simp [position, advance, Nat.add_comm]

theorem position_add_remaining (c : Cursor) : c.position + c.remaining = c.text.length := by
  simp [position, remaining, text]

theorem text_atPosition (t : Text) (n : Nat) : (atPosition t n).text = t := by
  simp [atPosition, text]

theorem clampOffset_le (length : Nat) (offset : Int) : clampOffset length offset ≤ length := by
  unfold clampOffset
  split
  · omega
  · omega

/-- The line that is searched for is the one that a cursor at the offset is in. -/
theorem lineTextAt_eq (t : Text) (offset : Int) :
    lineTextAt t offset = (atPosition t (clampOffset t.length offset)).lineText := by
  have hle := clampOffset_le t.length offset
  rw [lineTextAt, ← Text.slice_append_slice t (Text.elim_lastBefore?_le hle)
    (Text.le_getD_firstFrom? hle), Text.slice_lastBefore?, Text.slice_firstFrom?]
  rfl

theorem not_mem_takeWhile_bne (x : Char) (t : Text) : x ∉ t.takeWhile (· != x) := by
  intro h
  have := List.all_eq_true.mp (List.all_takeWhile (p := (· != x)) (l := t)) x h
  simp at this

theorem lineFeed_not_mem_lineText (c : Cursor) : '\n' ∉ c.lineText := by
  simp only [lineText, List.mem_append, List.mem_reverse, not_or]
  exact ⟨not_mem_takeWhile_bne _ _, not_mem_takeWhile_bne _ _⟩

end Cursor

end LoxLexer
