import LoxLexer.Proofs.ReaderHistory

/-!
# The text of a line comment

A comment that begins with two slashes goes up to the next line feed or to the
end of the text.  A carriage return in front of that line feed belongs to the
end of the line and is not held by the token.  A carriage return at the end of
the text ends no line, but the token loses it all the same.

    the text behind a place is cut at its first line feed          (FirstLineFeed.drop_eq)
    a call of a reader that meets two slashes                      (Settled.call_of_slashes)
    what the comment holds, behind every history                   (line_comment_of_history)
    a comment that is not held in full                             (line_comment_loses_return)
-/

namespace LoxLexer

/-! ## The first line feed -/

/-- `j` is the place of the first line feed of a text at a place or behind it. -/
structure FirstLineFeed (text : Text) (place j : Nat) : Prop where
  le : place ≤ j
  lineFeed : text[j]? = some '\n'
  first : ∀ k, place ≤ k → k < j → text[k]? ≠ some '\n'

section
variable {text : Text} {place j : Nat}

theorem FirstLineFeed.length_body (h : FirstLineFeed text place j) :
    ((text.take j).drop place).length = j - place := by
  have hlt := (List.getElem?_eq_some_iff.mp h.lineFeed).1
  rw [List.length_drop, List.length_take]
  omega

theorem FirstLineFeed.drop_eq (h : FirstLineFeed text place j) :
    text.drop place = (text.take j).drop place ++ '\n' :: text.drop (j + 1) := by
  obtain ⟨hlt, hget⟩ := List.getElem?_eq_some_iff.mp h.lineFeed
  have hle : place ≤ (text.take j).length := by
    have := h.le
    rw [List.length_take]
    omega
  rw [← hget, ← List.drop_eq_getElem_cons hlt, ← List.drop_append_of_le_length hle,
    List.take_append_drop]

theorem FirstLineFeed.not_mem_body (h : FirstLineFeed text place j) :
    '\n' ∉ (text.take j).drop place := by
  intro hmem
  obtain ⟨i, hi, hchar⟩ := List.mem_iff_getElem.mp hmem
  rw [List.length_drop, List.length_take] at hi
  rw [List.getElem_drop, List.getElem_take] at hchar
  apply h.first (place + i) (by omega) (by omega)
  rw [List.getElem?_eq_some_iff]
  exact ⟨by omega, hchar⟩

theorem lineFeed_not_mem_drop (h : ∀ j, ¬ FirstLineFeed text place j) : '\n' ∉ text.drop place := by
  intro hmem
  obtain ⟨body, rest, hsplit, hbody⟩ := List.eq_append_cons_of_mem hmem
  have hget : ∀ i, text[place + i]? = (body ++ '\n' :: rest)[i]? := by
    intro i
    rw [← hsplit, List.getElem?_drop]
  apply h (place + body.length)
  refine ⟨Nat.le_add_right _ _, ?_, ?_⟩
  · rw [hget]
    simp
  · intro k hplace hk heq
    obtain ⟨i, rfl⟩ := Nat.exists_eq_add_of_le hplace
    have hi : i < body.length := by omega
    rw [hget, List.getElem?_append_left hi] at heq
    exact hbody (List.mem_of_getElem? heq)

/-- A comment whose line ends takes the line feed as well. -/
theorem FirstLineFeed.lineComment_eq (h : FirstLineFeed text place j) :
    Lexed.lineComment (text.drop place) =
      ⟨.token .comment (Lexed.trimReturn ((text.take j).drop place)),
        '/' :: '/' :: ((text.take j).drop place ++ ['\n']), text.drop (j + 1)⟩ := by
  rw [h.drop_eq]
  exact Lexed.lineComment_of_lineFeed h.not_mem_body _

end

/-! ## The call that meets two slashes -/

/-- The front is what the text has behind the spaces. -/
theorem Lexer.Placed.drop_spaces {l : Lexer} {first : Int} {text : Text}
    (h : l.Placed first text) : text.drop (l.cursor.position + l.spaces.length) = l.front := by
  rw [← List.drop_drop, h.drop_position, ← l.spaces_append_front, List.drop_left]

theorem Lexer.next_of_slashes {l : Lexer} {r lexeme taken rest : Text}
    (h : l.front = '/' :: '/' :: r)
    (hr : Lexed.lineComment r = ⟨.token .comment lexeme, taken, rest⟩) :
    l.next.1 = .token ⟨.comment, lexeme, l.skipSpace.line⟩ ∧ l.taken = taken := by
  have hread : Lexed.read l.logical '/' ('/' :: r) = ⟨.token .comment lexeme, taken, rest⟩ := hr
  obtain ⟨-, hevent, -⟩ := next_of_front_cons h
  rw [hevent, taken_of_front_cons h, hread]
  exact ⟨rfl, rfl⟩

namespace Reader

theorem Settled.call_of_slashes {s : Reader} {first : Int} {begins : Nat}
    {text r lexeme taken rest : Text} (h : s.Settled) (hplaced : s.lexer.Placed first text)
    (hbegins : begins = s.buffer.position + s.lexer.spaces.length)
    (hfront : s.lexer.front = '/' :: '/' :: r)
    (hr : Lexed.lineComment r = ⟨.token .comment lexeme, taken, rest⟩) :
    let line := first + ((text.take begins).count '\n' : Nat)
    s.call.1 = logged (.ok ⟨.comment, lexeme, line⟩) ∧ s.call.2.mode = .betweenTokens ∧
      s.call.2.buffer.position = begins + taken.length ∧
      s.call.2.line = line + (taken.count '\n' : Nat) := by
  intro line
  have hne : s.lexer.front ≠ [] := by
    rw [hfront]
    exact List.cons_ne_nil _ _
  have hmode : s.mode.isDone = false := by
    apply Bool.eq_false_iff.mpr
    intro hdone
    exact hne (h.lexer_of_done hdone).2.1
  obtain ⟨hevent, htaken⟩ := Lexer.next_of_slashes hfront hr
  -- the line of the token is counted up to the slashes, that of the reader from there on
  have hline : s.lexer.skipSpace.line = line := by
    rw [hplaced.line_skipSpace]
    exact hbegins ▸ rfl
  refine ⟨?_, ?_, ?_, ?_⟩
  · rw [h.answer_of_not_done hmode, hevent, hline]
    rfl
  · rw [h.mode_call, if_neg hne]
  · show s.call.2.lexer.cursor.position = _
    rw [h.lexer_call, Lexer.position_next, htaken, hbegins]
    rfl
  · show s.call.2.lexer.line = _
    have hspace : s.lexer.skipSpace.line = s.lexer.line + (s.lexer.spaces.count '\n' : Nat) := rfl
    rw [h.lexer_call, Lexer.line_next, htaken, ← hline, hspace, List.count_append]
    omega

/-- **Line comments and their text.**  Behind any history, where the next token begins with two
slashes, the comment goes up to the first line feed behind them, which is passed, or to the end of
the text, and it has the line of its slashes.  It holds its text but for one carriage return at its
end, which belongs to the end of the line in front of a line feed, and is lost otherwise. -/
theorem line_comment_of_history (source : Text) (first : Int) (logical : Bool) (text : Text)
    (history : List Lexer.Action) :
    let s := ((start source first logical text).run history).2
    let begins := s.buffer.position + ((text.drop s.buffer.position).takeWhile isSpace).length
    let line := first + ((text.take begins).count '\n' : Nat)
    let holds (lexeme : Text) : Prop := s.call.1 = logged (.ok ⟨.comment, lexeme, line⟩)
    ['/', '/'] <+: text.drop begins →
      s.call.2.mode = .betweenTokens ∧
      (∀ j, FirstLineFeed text (begins + 2) j →
        let body := (text.take j).drop (begins + 2)
        holds (if body.getLast? = some '\r' then body.dropLast else body) ∧
          s.call.2.buffer.position = j + 1 ∧ s.call.2.line = line + 1) ∧
      ((∀ j, ¬ FirstLineFeed text (begins + 2) j) →
        let body := text.drop (begins + 2)
        (body.getLast? ≠ some '\r' → holds body) ∧
          (body.getLast? = some '\r' → holds body.dropLast) ∧
          s.call.2.buffer.position = text.length ∧ s.call.2.line = line) := by
  intro s begins line holds hslashes
  obtain ⟨hsettled, -⟩ := (settled_start source first logical text).run history
  have hplaced : s.lexer.Placed first text := placed_run source first logical text history
  have hbegins : begins = s.buffer.position + s.lexer.spaces.length :=
    congrArg (s.buffer.position + ·.length) hplaced.takeWhile_drop
  obtain ⟨r, hr⟩ := hslashes
  have hslashes : s.lexer.front = '/' :: '/' :: text.drop (begins + 2) := by
    have hdrop : text.drop begins = s.lexer.front := hbegins ▸ hplaced.drop_spaces
    have hbehind : text.drop (begins + 2) = r := by
      rw [← List.drop_drop, ← hr]
      rfl
    rw [hbehind, ← hdrop]
    exact hr.symm
  have hplace : begins + 2 ≤ text.length := by
    have hlength := congrArg List.length hr
    simp only [List.length_append, List.length_cons, List.length_nil, List.length_drop] at hlength
    omega
  refine ⟨?_, ?_, ?_⟩
  · exact (hsettled.call_of_slashes hplaced hbegins hslashes rfl).2.1
  · intro j hj body
    obtain ⟨hholds, -, hposition, hline⟩ :=
      hsettled.call_of_slashes hplaced hbegins hslashes hj.lineComment_eq
    refine ⟨hholds, ?_, ?_⟩
    · have hle := hj.le
      have hlength := hj.length_body
      rw [hposition]
      simp only [List.length_cons, List.length_append, List.length_nil, hlength]
      omega
    · rw [hline]
      have hcount := List.count_eq_zero.mpr hj.not_mem_body
      simp [line, hcount]
  · intro hnone body
    have hbody : '\n' ∉ body := lineFeed_not_mem_drop hnone
    have hcount : (text.drop (begins + 2)).count '\n' = 0 := List.count_eq_zero.mpr hbody
    obtain ⟨hholds, -, hposition, hline⟩ :=
      hsettled.call_of_slashes hplaced hbegins hslashes (Lexed.lineComment_of_not_mem hbody)
    refine ⟨?_, ?_, ?_, ?_⟩
    · intro hlast
      rwa [Lexed.trimReturn, if_neg hlast] at hholds
    · intro hlast
      rwa [Lexed.trimReturn, if_pos hlast] at hholds
    · rw [hposition]
      simp only [List.length_cons, List.length_drop]
      omega
    · rw [hline]
      simp [line, hcount]

/-- A comment behind a word, on a line that ends with both characters. -/
theorem line_comment_of_history_crlf :
    let text := "x //a\r\ny".toList
    let s := ((start "a.lox".toList 7 true text).run [.next]).2
    let begins := s.buffer.position + ((text.drop s.buffer.position).takeWhile isSpace).length
    ['/', '/'] <+: text.drop begins ∧ FirstLineFeed text (begins + 2) 6 ∧
      s.call.1 = logged (.ok ⟨.comment, ['a'], 7⟩) ∧ s.call.2.buffer.position = 7 ∧
      s.call.2.line = 8 := by
  intro text s begins
  have hslashes : ['/', '/'] <+: text.drop begins := by decide +kernel
  have hj : FirstLineFeed text (begins + 2) 6 :=
    ⟨by decide +kernel, by decide +kernel, by decide +kernel⟩
  obtain ⟨-, hended, -⟩ :=
    line_comment_of_history "a.lox".toList 7 true text [.next] hslashes
  obtain ⟨hholds, hposition, hline⟩ := hended 6 hj
  let body := (text.take 6).drop (begins + 2)
  have htoken : (⟨.comment, if body.getLast? = some '\r' then body.dropLast else body,
      7 + ((text.take begins).count '\n' : Nat)⟩ : Token) = ⟨.comment, ['a'], 7⟩ := by
    decide +kernel
  refine ⟨hslashes, hj, ?_, hposition, ?_⟩
  · exact hholds.trans (congrArg (fun t => logged (.ok t)) htoken)
  · exact hline.trans (by decide +kernel)

/-- A carriage return that ends the text, and no line, is no part of the comment. -/
theorem line_comment_loses_return :
    let text := "//\r".toList
    let s := start "a.lox".toList 1 true text
    (∀ j, ¬ FirstLineFeed text 2 j) ∧ text.drop 2 = ['\r'] ∧
      s.call.1 = .ok ⟨.comment, [], 1⟩ := by
  intro text s
  have hnone : '\n' ∉ text := by decide
  refine ⟨?_, rfl, by decide +kernel⟩
  intro j hj
  exact hnone (List.mem_of_getElem? hj.lineFeed)

end Reader

end LoxLexer
