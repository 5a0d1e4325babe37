import LoxLexer.Proofs.Collecting
import LoxLexer.Proofs.SourceLines

/-!
# Counted lines

A summary counts lines in one pass over the text, and a reader numbers them one
by one while it goes through the text.  A token starts with a character that is
no line feed, so some counted line is still to come where it starts; the end
token has passed every line feed.

    the last line of a text is what follows its last line feed      (getLast?_lines)
    the count is that of the lines without an empty last one        (length_shownLines)
    a character that is no line feed stands on a counted line       (count_lt_lineCount)
    so does every token that calls come to                          (RunsTo.lines_counted)
    numbers and counts agree wherever a scan succeeds               (lines_of_run)
-/

namespace LoxLexer

/-! ## Texts -/

namespace Text

/-- The lines of a text as an editor shows them: an empty last one is left out. -/
def shownLines (t : Text) : List Text :=
  if t.lines.getLast? = some [] then t.lines.dropLast else t.lines

/-- A text whose last line is empty, and so is not shown. -/
def EndsLine (t : Text) : Prop := t = [] ∨ t.getLast? = some '\n'

instance (t : Text) : Decidable t.EndsLine := inferInstanceAs (Decidable (_ ∨ _))

theorem getLast?_lines (t : Text) :
    t.lines.getLast? = some (t.reverse.takeWhile (· != '\n')).reverse := by
  have hline := Cursor.lines_count_seen ⟨t.reverse, []⟩
  rw [Cursor.text, Cursor.lineText, List.reverse_reverse, List.append_nil, List.takeWhile_nil,
    List.append_nil, List.count_reverse] at hline
  rw [getLast?_lines_eq_getElem?]
  exact hline

theorem getLast?_lines_eq_nil_iff (t : Text) : t.lines.getLast? = some [] ↔ t.EndsLine := by
  rw [getLast?_lines]
  rcases t.eq_nil_or_concat with rfl | ⟨u, c, rfl⟩
  · simp [EndsLine]
  · by_cases hc : c = '\n'
    · simp [EndsLine, hc]
    · simp [EndsLine, hc]

theorem lineCount_eq (t : Text) :
    t.lineCount = if t.EndsLine then t.count '\n' else t.count '\n' + 1 := by
  unfold lineCount EndsLine
  by_cases hnil : t = []
  · simp [hnil]
  · by_cases hlast : t.getLast? = some '\n'
    · simp [hnil, hlast]
    · simp [hnil, hlast]

/-- **What is counted are the lines that are shown.** -/
theorem length_shownLines (t : Text) : t.shownLines.length = t.lineCount := by
  have hlength : t.lines.length = t.count '\n' + 1 := length_pieces '\n' t
  rw [shownLines, lineCount_eq]
  by_cases hends : t.EndsLine
  · rw [if_pos ((getLast?_lines_eq_nil_iff t).mpr hends), if_pos hends, List.length_dropLast]
    omega
  · rw [if_neg (mt (getLast?_lines_eq_nil_iff t).mp hends), if_neg hends]
    exact hlength

/-- A character that is no line feed stands on a line that is counted. -/
theorem count_lt_lineCount {c : Char} (hc : c ≠ '\n') (u v : Text) :
    u.count '\n' < (u ++ c :: v).lineCount := by
  have hcount : (u ++ c :: v).count '\n' = u.count '\n' + v.count '\n' := by
    rw [List.count_append, List.count_cons_of_ne hc]
  rw [lineCount_eq, hcount]
  by_cases hends : (u ++ c :: v).EndsLine
  · rw [if_pos hends]
    -- the text ends with a line feed, and that is behind the character
    have hlast : (u ++ c :: v).getLast? = some '\n' := hends.resolve_left (by simp)
    rcases List.eq_nil_or_concat v with rfl | ⟨w, d, rfl⟩
    · rw [List.getLast?_concat] at hlast
      exact absurd (Option.some.inj hlast) hc
    · have happend : u ++ c :: w.concat d = u ++ c :: w ++ [d] := by simp
      rw [happend, List.getLast?_concat] at hlast
      rw [Option.some.inj hlast, List.concat_eq_append, List.count_append,
        List.count_singleton_self]
      omega
  · rw [if_neg hends]
    omega

end Text

/-! ## Calls -/

namespace Lexer

/-- A token stands on a line that is counted. -/
theorem Placed.line_of_token {l : Lexer} {first : Int} {text : Text} (h : l.Placed first text)
    {t : Token} (hfront : l.front ≠ []) (ht : l.next.1 = .token t) :
    ∃ n < text.lineCount, t.line = first + n := by
  obtain ⟨c, r, hcr⟩ := List.exists_cons_of_ne_nil hfront
  have hc : c ≠ '\n' := by
    rintro rfl
    cases isSpace_of_front_cons hcr
  have hrest : l.skipSpace.cursor.rest = c :: r := hcr
  have htext : text = l.skipSpace.cursor.seen.reverse ++ c :: r := by
    rw [← h.skipSpace.text_eq, Cursor.text, hrest]
  refine ⟨l.skipSpace.cursor.seen.count '\n', ?_, ?_⟩
  · rw [htext, ← List.count_reverse]
    exact Text.count_lt_lineCount hc _ r
  · rw [(read_of_token hcr ht).2]
    exact h.skipSpace.line_eq

/-- The end token stands behind every line feed. -/
theorem Placed.line_of_end {l : Lexer} {first : Int} {text : Text} (h : l.Placed first text)
    {t : Token} (hkind : t.kind = .endOfInput) (ht : l.next.1 = .token t) :
    t.line = first + (text.count '\n' : Nat) := by
  have hfront : l.front = [] := by
    rw [← l.isEnd_next_iff, ht]
    simp [Event.isEnd, hkind]
  rw [(next_of_front_nil hfront).2] at ht
  cases ht
  exact h.skipSpace.line_of_rest_nil hfront

end Lexer

namespace Reader

/-- The tokens up to the last answer stand on counted lines; an end token that comes then has
passed every line feed. -/
theorem RunsTo.lines_counted {s : Reader} {tokens : List Token} {a : Answer}
    (hruns : s.RunsTo tokens a) (h : s.Settled) {first : Int} {text : Text}
    (hplaced : s.lexer.Placed first text) :
    (∀ t ∈ tokens, ∃ n < text.lineCount, t.line = first + n) ∧
      ∀ t, a = .ok t → t.line = first + (text.count '\n' : Nat) := by
  induction hruns with
  | @last s hlast =>
    refine ⟨by simp, ?_⟩
    intro t ht
    rw [ht] at hlast
    have hkind : t.kind = .endOfInput := by simpa [Answer.isLast] using hlast
    exact hplaced.line_of_end hkind (h.next_of_call_ok ht)
  | @token s t tokens a ht hkind later ih =>
    have hnext : s.call.2.lexer.Placed first text := by
      rw [h.lexer_call]
      exact hplaced.next
    obtain ⟨hlater, hend⟩ := ih h.call hnext
    have hline := hplaced.line_of_token (h.front_of_call_ok ht hkind) (h.next_of_call_ok ht)
    exact ⟨List.forall_mem_cons.mpr ⟨hline, hlater⟩, hend⟩

end Reader

/-! ## Scans -/

namespace Scan

section
variable {includeComments : Bool} {source : Text} {settings : Settings} {input : Input}
  {summary : Summary}

/-- A scan that succeeds has read its source, and calls of a reader of it come to the end token. -/
theorem exists_runsTo_of_run
    (h : (run includeComments source settings input).outcome = .ok summary) :
    ∃ text tokens ending, input.load settings.encoding ⟨source, settings.firstLine⟩ = .ok text ∧
      (Reader.start source settings.firstLine settings.logical text).RunsTo tokens (.ok ending) ∧
      summary = ⟨source, tokens.filter (keeps includeComments), tokens.countP isComment,
        text.lineCount⟩ := by
  cases hload : input.load settings.encoding ⟨source, settings.firstLine⟩ with
  | error f =>
    rw [run, hload] at h
    cases h
  | ok text =>
    have hsettled := Reader.settled_start source settings.firstLine settings.logical text
    obtain ⟨tokens, a, hruns⟩ := hsettled.exists_runsTo
    obtain ⟨-, houtcome⟩ := ofDrained_of_runsTo includeComments source text hsettled rfl hruns
    rw [run_of_load hload] at h
    have hsame : outcomeOf includeComments source text tokens a = .ok summary :=
      houtcome.symm.trans h
    cases a with
    | error e => cases hsame
    | ok ending => exact ⟨text, tokens, ending, rfl, hruns, (Except.ok.inj hsame).symm⟩

/-- **The line count agrees with the line numbers.**  If a scan succeeds, a reader of its source
comes to some tokens and then to the end token.  The tokens, comments included, stand on the lines
from the first one on that are counted.  The end token stands on the last of these, or behind it if
the text is empty or ends with a line feed.  The count is the number of lines without an empty last
one, and it is the same for every scan of the source that succeeds, with whatever other settings. -/
theorem lines_of_run (h : (run includeComments source settings input).outcome = .ok summary) :
    ∃ (text : Text) (s : Reader) (tokens : List Token) (ending : Token),
      input.load settings.encoding ⟨source, settings.firstLine⟩ = .ok text ∧
      Reader.ofInput source settings input = .ok s ∧
      (s.calls (tokens.length + 1)).1 = tokens.map .ok ++ [.ok ending] ∧
      summary.tokens = tokens.filter (keeps includeComments) ∧
      (∀ t ∈ tokens, t.kind ≠ .endOfInput ∧ settings.firstLine ≤ t.line ∧
        t.line ≤ settings.firstLine + summary.lineCount - 1) ∧
      ending.kind = .endOfInput ∧
      ending.line =
        (if text = [] ∨ text.getLast? = some '\n' then settings.firstLine + summary.lineCount
        else settings.firstLine + summary.lineCount - 1) ∧
      summary.lineCount = text.shownLines.length ∧
      ∀ (includeComments' : Bool) (source' : Text) (settings' : Settings) (summary' : Summary),
        settings'.encoding = settings.encoding →
        (run includeComments' source' settings' input).outcome = .ok summary' →
          summary'.lineCount = summary.lineCount := by
  obtain ⟨text, tokens, ending, hload, hruns, rfl⟩ := exists_runsTo_of_run h
  have hsettled := Reader.settled_start source settings.firstLine settings.logical text
  have hplaced : (Reader.start source settings.firstLine settings.logical text).lexer.Placed
      settings.firstLine text := Lexer.placed_start _ _ _ _
  obtain ⟨hlines, hending⟩ := hruns.lines_counted hsettled hplaced
  have hread : Reader.ofInput source settings input =
      .ok (Reader.start source settings.firstLine settings.logical text) := by
    rw [Reader.ofInput, hload]
    rfl
  refine ⟨text, _, tokens, ending, hload, hread, hruns.calls_eq, rfl, ?_, ?_, ?_, ?_, ?_⟩
  · intro t ht
    obtain ⟨n, hn, hline⟩ := hlines t ht
    refine ⟨hruns.kind_ne t ht, ?_, ?_⟩
    · omega
    · show t.line ≤ settings.firstLine + (text.lineCount : Int) - 1
      omega
  · simpa [Answer.isLast] using hruns.isLast
  · have hcount := text.lineCount_eq
    rw [hending ending rfl]
    show _ = if text.EndsLine then settings.firstLine + (text.lineCount : Int)
      else settings.firstLine + (text.lineCount : Int) - 1
    by_cases hends : text.EndsLine
    · rw [if_pos hends] at hcount ⊢
      omega
    · rw [if_neg hends] at hcount ⊢
      omega
  · exact text.length_shownLines.symm
  · intro includeComments' source' settings' summary' hencoding h'
    obtain ⟨text', tokens', ending', hload', -, rfl⟩ := exists_runsTo_of_run h'
    rw [hencoding, Input.load_of_load hload] at hload'
    cases hload'
    rfl

/-- A string over two lines, at the end of a text without a last line feed. -/
theorem lines_of_run_string :
    let settings : Settings := { firstLine := 7 }
    let input : Input := .content (.text "x\n\"a\nb\"".toList)
    let summary : Summary := ⟨"a.lox".toList,
      [⟨.identifier, "x".toList, 7⟩, ⟨.string, "a\nb".toList, 8⟩], 0, 3⟩
    (run false "a.lox".toList settings input).outcome = .ok summary ∧
      ∃ (s : Reader) (tokens : List Token) (ending : Token),
        Reader.ofInput "a.lox".toList settings input = .ok s ∧
        (s.calls (tokens.length + 1)).1 = tokens.map .ok ++ [.ok ending] ∧
        ∀ t ∈ tokens, 7 ≤ t.line ∧ t.line ≤ 9 := by
  intro settings input summary
  have hrun : (run false "a.lox".toList settings input).outcome = .ok summary := by
    decide +kernel
  obtain ⟨text, s, tokens, ending, -, hread, hcalls, -, hlines, -⟩ := lines_of_run hrun
  exact ⟨hrun, s, tokens, ending, hread, hcalls, fun t ht => (hlines t ht).2⟩

end

end Scan

end LoxLexer
