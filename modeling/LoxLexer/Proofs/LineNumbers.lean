import LoxLexer.Proofs.SourceForms

/-!
# Line numbers

The line of an event is the first line plus the line feeds in front of its
source form; a string that runs out and the end token have the last line of the
text.  This holds for every first line and behind every history.

    l.line ≤ the line of the next event ≤ l.next.2.line                    (exists_line?_next)
    every event of a history has the line of its place                     (line_of_history)
-/

namespace LoxLexer

/-- The line that an event has to report in a text, when its source form begins at `start`. -/
def Event.lineIn (first : Int) (text : Text) (start : Nat) : Event → Int
  | .token ⟨.endOfInput, _, _⟩ => first + (text.count '\n' : Nat)
  | .error ⟨.unterminatedString, _, _⟩ => first + (text.count '\n' : Nat)
  | _ => first + ((text.take start).count '\n' : Nat)

theorem exists_lineIn_eq (first : Int) (text : Text) (start : Nat) (e : Event) :
    ∃ n : Nat, n ≤ text.count '\n' ∧ e.lineIn first text start = first + n := by
  unfold Event.lineIn
  split
  · exact ⟨_, Nat.le_refl _, rfl⟩
  · exact ⟨_, Nat.le_refl _, rfl⟩
  · exact ⟨_, (List.take_sublist start text).count_le '\n', rfl⟩

namespace Lexer

/-- An event is never in front of the line that the lexer is on, nor behind the one it goes to. -/
theorem exists_line?_next (l : Lexer) :
    ∃ n, l.next.1.line? = some n ∧ l.line ≤ n ∧ n ≤ l.next.2.line := by
  have hspace : l.line ≤ l.skipSpace.line := line_le_advance l _ _
  have hnext : l.line ≤ l.next.2.line := by
    rw [l.line_next]
    omega
  have hn : ∃ n, l.next.1.line? = some n ∧ l.line ≤ n := by
    rcases l.next_cases with ⟨-, hn⟩ | ⟨-, ⟨k, x, he, -⟩ | ⟨cause, he, -⟩⟩
    · rw [hn]
      exact ⟨_, rfl, hspace⟩
    · rw [he]
      exact ⟨_, rfl, hspace⟩
    · rw [he]
      refine ⟨_, rfl, ?_⟩
      split
      · exact hnext
      · exact hspace
  obtain ⟨n, hline, hle⟩ := hn
  exact ⟨n, hline, hle, line?_next_le hline⟩

/-- The lines of a history do not decrease. -/
theorem exists_lines_run (l : Lexer) (history : List Action) :
    ∃ lines : List Int, (l.run history).1.map Event.line? = lines.map some ∧
      lines.Pairwise (· ≤ ·) ∧ ∀ n ∈ lines, l.line ≤ n := by
  induction history generalizing l with
  | nil => exact ⟨[], rfl, .nil, by simp⟩
  | cons a as ih =>
    obtain ⟨lines, hmap, hsorted, hle⟩ := ih (l.act a).2
    cases a with
    | setLogical logical => exact ⟨lines, hmap, hsorted, hle⟩
    | next =>
      obtain ⟨n, hn, hln, hnext⟩ := l.exists_line?_next
      have hbehind : ∀ m ∈ lines, n ≤ m := fun m hm => Int.le_trans hnext (hle m hm)
      refine ⟨n :: lines, ?_, List.pairwise_cons.mpr ⟨hbehind, hsorted⟩, ?_⟩
      · show l.next.1.line? :: (l.next.2.run as).1.map Event.line? = some n :: lines.map some
        rw [hn]
        exact congrArg (some n :: ·) hmap
      · intro m hm
        rcases List.mem_cons.mp hm with rfl | hm
        · exact hln
        · exact Int.le_trans hln (hbehind m hm)

/-- Every event has a line, and these are in order. -/
theorem pairwise_filterMap_line? (l : Lexer) (history : List Action) :
    ((l.run history).1.filterMap Event.line?).Pairwise (· ≤ ·) := by
  obtain ⟨lines, hmap, hsorted, -⟩ := l.exists_lines_run history
  have hlines : (l.run history).1.filterMap Event.line? = lines := by
    have hcomp := List.filterMap_map (f := Event.line?) (g := id) (l := (l.run history).1)
    rw [hmap, List.filterMap_map] at hcomp
    exact hcomp.symm.trans List.filterMap_some
  rw [hlines]
  exact hsorted

section
variable {l : Lexer} {first : Int} {text : Text}

theorem Placed.line_skipSpace (h : l.Placed first text) :
    l.skipSpace.line =
      first + ((text.take (l.cursor.position + l.spaces.length)).count '\n' : Nat) := by
  have hpos : l.skipSpace.cursor.position = l.cursor.position + l.spaces.length :=
    Cursor.position_advance _ _ _
  rw [h.skipSpace.line_eq_take, hpos]

theorem Placed.line_of_rest_nil (h : l.Placed first text) (hr : l.cursor.rest = []) :
    l.line = first + (text.count '\n' : Nat) := by
  rw [h.line_eq_take, h.rest_eq_nil_iff.mp hr, List.take_length]

/-- The last event of a text is an end token on the last line. -/
theorem Placed.endToken_finish (h : l.Placed first text) (hf : l.front = []) :
    l.finish.endToken = ⟨.endOfInput, [], first + (text.count '\n' : Nat)⟩ :=
  congrArg (Token.mk .endOfInput []) (h.skipSpace.line_of_rest_nil hf)

/-- The line of the next event is the one that its place asks for. -/
theorem Placed.line?_next (h : l.Placed first text) :
    l.next.1.line? =
      some (l.next.1.lineIn first text (l.cursor.position + l.spaces.length)) := by
  rcases l.next_cases with ⟨hf, hn⟩ | ⟨-, ⟨k, x, he, hs⟩ | ⟨cause, he, hr⟩⟩
  · rw [hn]
    exact congrArg some (h.skipSpace.line_of_rest_nil hf)
  · rw [he]
    have hk := hs.kind_ne_endOfInput
    have hline : Event.lineIn first text (l.cursor.position + l.spaces.length)
        (.token ⟨k, x, l.skipSpace.line⟩) = l.skipSpace.line := by
      rw [h.line_skipSpace]
      cases k <;> first | rfl | exact absurd rfl hk
    rw [hline]
    rfl
  · rw [he]
    by_cases hcause : cause = .unterminatedString
    · subst hcause
      rw [if_pos rfl]
      have hrest : l.next.2.cursor.rest = [] := by
        generalize l.taken = w, l.next.2.cursor.rest = s at hr
        cases hr
        rfl
      exact congrArg some (h.next.line_of_rest_nil hrest)
    · rw [if_neg hcause]
      refine congrArg some (h.line_skipSpace.trans ?_)
      cases cause <;> first | rfl | exact absurd rfl hcause

end

/-- **Lines are exact.**  Behind any history, the lexer's line counts the line feeds in front of
the cursor, the next event has the line of the place where its source form begins, and the lines
of the events so far are in order. -/
theorem line_of_history (source : Text) (first : Int) (logical : Bool) (text : Text)
    (history : List Action) :
    let before := (start source first logical text).run history
    let l := before.2
    let begins := l.cursor.position + ((text.drop l.cursor.position).takeWhile isSpace).length
    l.line = first + ((text.take l.cursor.position).count '\n' : Nat) ∧
      SourceForm (l.next.2.cursor.position = text.length) l.next.1
        ((text.take l.next.2.cursor.position).drop begins) ∧
      l.next.1.line? = some (l.next.1.lineIn first text begins) ∧
      ∃ lines : List Int, (before.1 ++ [l.next.1]).map Event.line? = lines.map some ∧
        lines.Pairwise (· ≤ ·) := by
  intro before l begins
  have hplaced : l.Placed first text := (placed_start source first logical text).run history
  have hbegins : begins = l.cursor.position + l.spaces.length := by
    simp only [begins, hplaced.drop_position, spaces]
  refine ⟨hplaced.line_eq_take, ?_, ?_, ?_⟩
  · have hform := l.sourceForm_next
    rw [hplaced.next.rest_eq_nil_iff] at hform
    rw [hbegins, ← List.drop_drop, hplaced.slice_next, List.drop_left]
    exact hform
  · rw [hbegins]
    exact hplaced.line?_next
  · obtain ⟨lines, hmap, hsorted, -⟩ :=
      (start source first logical text).exists_lines_run (history ++ [.next])
    exact ⟨lines, by rw [← hmap, run_append]; rfl, hsorted⟩

end Lexer

end LoxLexer
