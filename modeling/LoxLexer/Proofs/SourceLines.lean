import LoxLexer.Proofs.ReaderHistory

/-!
# Source lines

An error has the number of a line and the text of a line.  The number comes from
the line feeds that were passed, the text from a search for the line feeds around
a place, and the two belong together: the text is the line of that number.

    c.text.lines[c.seen.count '\n']? = some c.lineText          (Cursor.lines_count_seen)
    every error points at a line of the text                    (Placed.pointsAt_next)
    so do the errors of a reader, behind any history            (error_points_at_its_line)
-/

namespace LoxLexer

/-! ## Cursors -/

namespace Text

/-- The first line goes on up to the first line feed. -/
theorem head?_lines {u : Text} (hu : '\n' ∉ u) (r : Text) :
    (u ++ r).lines.head? = some (u ++ r.takeWhile (· != '\n')) := by
  by_cases hr : '\n' ∈ r
  · obtain ⟨x, y, rfl, hx⟩ := List.eq_append_cons_of_mem hr
    have hux : '\n' ∉ u ++ x := by simp [hu, hx]
    rw [lines, ← List.append_assoc, pieces_append_sep, pieces_of_not_mem hux, takeWhile_bne hx]
    rfl
  · have hur : '\n' ∉ u ++ r := by simp [hu, hr]
    rw [lines, pieces_of_not_mem hur, takeWhile_bne_self hr]
    rfl

theorem getLast?_lines_eq_getElem? (t : Text) :
    t.lines.getLast? = t.lines[t.count '\n']? := by
  rw [List.getLast?_eq_getElem?, lines, length_pieces, Nat.add_sub_cancel]

end Text

/-- **The line at a cursor** is the one whose number, from zero, is the number of line feeds in
front of the cursor. -/
theorem Cursor.lines_count_seen (c : Cursor) :
    c.text.lines[c.seen.count '\n']? = some c.lineText := by
  obtain ⟨seen, rest⟩ := c
  by_cases hseen : '\n' ∈ seen
  · obtain ⟨x, y, rfl, hx⟩ := List.eq_append_cons_of_mem hseen
    have htext : text ⟨x ++ '\n' :: y, rest⟩ = y.reverse ++ '\n' :: (x.reverse ++ rest) := by
      simp [text]
    have hcount : (x ++ '\n' :: y).count '\n' = (Text.pieces '\n' y.reverse).length := by
      rw [Text.length_pieces, List.count_append, List.count_eq_zero.mpr hx, List.count_cons_self,
        List.count_reverse, Nat.zero_add]
    have hx' : '\n' ∉ x.reverse := by simpa using hx
    have hhead := Text.head?_lines hx' rest
    rw [htext, hcount, Text.lines, Text.pieces_append_sep,
      List.getElem?_append_right (Nat.le_refl _), Nat.sub_self, ← List.head?_eq_getElem?]
    rw [lineText, takeWhile_bne hx]
    exact hhead
  · have hseen' : '\n' ∉ seen.reverse := by simpa using hseen
    rw [List.count_eq_zero.mpr hseen, ← List.head?_eq_getElem?, lineText, takeWhile_bne_self hseen]
    exact Text.head?_lines hseen' rest

/-! ## Errors -/

/-- The diagnostic is about line `n` of a text, counted from zero: it has the name of the source,
the number of this line when the first one is numbered `first`, and its text. -/
structure Diagnostic.PointsAt (source : Text) (first : Int) (text : Text) (n : Nat)
    (d : Diagnostic) : Prop where
  le_count : n ≤ text.count '\n'
  location_eq : d.location = some ⟨source, first + n⟩
  sourceLine_eq : ∃ line, text.lines[n]? = some line ∧ d.sourceLine = some line

namespace Lexer

section
variable {l : Lexer} {first : Int} {text : Text}

/-- The line feeds in front of the cursor are line feeds of the text. -/
theorem Placed.count_seen_le (h : l.Placed first text) :
    l.cursor.seen.count '\n' ≤ text.count '\n' := by
  rw [← h.text_eq, Cursor.text, List.count_append, List.count_reverse]
  exact Nat.le_add_right _ _

theorem Placed.lines_count_seen (h : l.Placed first text) :
    text.lines[l.cursor.seen.count '\n']? = some l.cursor.lineText := by
  rw [← h.text_eq]
  exact l.cursor.lines_count_seen

/-- An error that is reported at a lexer's place points at the line the lexer is on. -/
theorem Placed.pointsAt_errorHere (h : l.Placed first text) {cause : Cause} {d : Diagnostic}
    (hd : l.errorHere cause = .error d) :
    d.PointsAt l.source first text (l.cursor.seen.count '\n') := by
  cases hd
  refine ⟨h.count_seen_le, ?_, _, h.lines_count_seen, rfl⟩
  rw [h.line_eq]

/-- The error that a call yields points at a line, be it where the error starts or where the text
runs out. -/
theorem Placed.pointsAt_next (h : l.Placed first text) {d : Diagnostic}
    (hd : l.next.1 = .error d) : ∃ n, d.PointsAt l.source first text n := by
  rcases l.next_cases with ⟨-, hn⟩ | ⟨-, ⟨k, x, he, -⟩ | ⟨cause, he, -⟩⟩
  · rw [hn] at hd
    cases hd
  · rw [he] at hd
    cases hd
  · rw [he] at hd
    split at hd
    · have hpoints := h.next.pointsAt_errorHere hd
      rw [l.source_next] at hpoints
      exact ⟨_, hpoints⟩
    · exact ⟨_, h.skipSpace.pointsAt_errorHere hd⟩

end

end Lexer

namespace Reader

/-- The diagnostic of a call is the error of the lexer. -/
theorem Settled.next_of_call {s : Reader} (h : s.Settled) {d : Diagnostic}
    (hd : s.call.1 = .error (.diagnostic d)) : s.lexer.next.1 = .error d := by
  have hlogged : ∀ e, logged (Answer.ofEvent e) = .error (.diagnostic d) → e = .error d := by
    intro e he
    cases e with
    | token t =>
      simp only [Answer.ofEvent, logged] at he
      split at he <;> cases he
    | error e =>
      simp only [Answer.ofEvent, logged] at he
      split at he
      · cases he
        rfl
      · cases he
  rw [h.answer_call] at hd
  split at hd
  · next hdone =>
    obtain ⟨-, hfront, -⟩ := h.lexer_of_done hdone
    rw [(Lexer.next_of_front_nil hfront).2] at hd
    cases hd
  · exact hlogged _ hd

/-- Behind any history, the diagnostic of a call and the error of the lexer are the same. -/
theorem next_of_run {source : Text} {first : Int} {logical : Bool} {text : Text}
    {history : List Lexer.Action} {d : Diagnostic}
    (hd : ((start source first logical text).run history).2.call.1 = .error (.diagnostic d) ∨
      ((Lexer.start source first logical text).run history).2.next.1 = .error d) :
    ((Lexer.start source first logical text).run history).2.next.1 = .error d := by
  rcases hd with hd | hd
  · obtain ⟨hsettled, hlexer⟩ := (settled_start source first logical text).run history
    exact hlexer ▸ hsettled.next_of_call hd
  · exact hd

/-- **Errors point at their line.**  Behind any history, the error of a call has the name of the
source, the number of a line of the text, and the text of the line with this number. -/
theorem error_points_at_its_line (source : Text) (first : Int) (logical : Bool) (text : Text)
    (history : List Lexer.Action) :
    let s := ((start source first logical text).run history).2
    let l := ((Lexer.start source first logical text).run history).2
    ∀ d, s.call.1 = .error (.diagnostic d) ∨ l.next.1 = .error d →
      ∃ n, d.PointsAt source first text n := by
  intro s l d hd
  have hnext : l.next.1 = .error d := next_of_run hd
  have hplaced : l.Placed first text :=
    (Lexer.placed_start source first logical text).run history
  have hpoints := hplaced.pointsAt_next hnext
  rwa [show l.source = source from Lexer.source_run _ history] at hpoints

/-- Behind an operator that a line feed follows, a string that runs out on the last line. -/
theorem error_points_at_its_line_string :
    let text : Text := "x &\n\"a\nb".toList
    let d : Diagnostic := ⟨.unterminatedString, some ⟨"a.lox".toList, 9⟩, some "b".toList⟩
    ((start "a.lox".toList 7 true text).run [.next, .next]).2.call.1 = .error (.diagnostic d) ∧
      ∃ n, d.PointsAt "a.lox".toList 7 text n := by
  intro text d
  have hcall : ((start "a.lox".toList 7 true text).run [.next, .next]).2.call.1 =
      .error (.diagnostic d) := by decide +kernel
  exact ⟨hcall, error_points_at_its_line "a.lox".toList 7 true text [.next, .next] d
    (Or.inl hcall)⟩

end Reader

end LoxLexer
