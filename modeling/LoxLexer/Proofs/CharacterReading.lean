import LoxLexer.Proofs.History
import LoxLexer.Proofs.Lookahead
import LoxLexer.Reader

/-!
# Reading character by character is reading ahead

A reader takes one character after the other, and gives one back where it went
too far.  Each part of it comes to what the lexer reads from the whole rest of
the text, on the same line, with the same source line in its diagnostics, and
leaves its buffer behind the same text.

    (s.behind [c] r k).operator kind c  gives  Lexed.operator kind c r   (operator_gives)
    stringFrom, from the opening quote  gives  Lexed.string r            (string_gives)
    (s.behind ['/'] r k).slash          gives  Lexed.slash r             (slash_gives)
    s.word, in front of c :: r          gives  Lexed.word c r            (word_gives)
    (s.behind [c] r true).read c        gives  Lexed.read s.logical c r  (read_gives)
-/

namespace LoxLexer

/-! ## Places in a buffer -/

theorem Cursor.lineText_advance {c : Cursor} {u s : Text} (hr : c.rest = u ++ s) (hu : '\n' ∉ u) :
    (c.advance u s).lineText = c.lineText := by
  have hrev : '\n' ∉ u.reverse := by simpa using hu
  simp only [lineText, advance, hr, List.takeWhile_append_of_pos (bne_of_not_mem hrev),
    List.takeWhile_append_of_pos (bne_of_not_mem hu), List.reverse_append, List.reverse_reverse,
    List.append_assoc]

/-- The line at a cursor's own place is the line that it is in. -/
theorem Cursor.lineTextAt_position (c : Cursor) : lineTextAt c.text c.position = c.lineText := by
  have hle : c.position ≤ c.text.length := by
    have := c.position_add_remaining
    omega
  have hclamp : clampOffset c.text.length c.position = c.position := by
    rw [clampOffset, if_neg (by omega)]
    omega
  have hat : atPosition c.text c.position = c := by
    simp [atPosition, text, position]
  rw [lineTextAt_eq, hclamp, hat]

theorem Buffer.lineText_none (b : Buffer) : b.lineText none = b.cursor.lineText :=
  b.cursor.lineTextAt_position

theorem Buffer.joins_of_nil {b : Buffer} (h : b.cursor.rest = []) : b.joins = .ok false := by
  rw [joins, glance_one, h]
  rfl

theorem Buffer.joins_of_cons {b : Buffer} {c : Char} {r : Text} (h : b.cursor.rest = c :: r) :
    b.joins = .ok (joinsWord c r) := by
  have htwo : b.glance 2 = .ok r.head? := by
    rw [List.head?_eq_getElem?]
    exact (b.glance_succ 1).trans (by rw [h]; rfl)
  simp only [joins, glance_one, h, List.head?_cons, htwo, joinsWord]
  cases hw : isWordChar c with
  | true => rfl
  | false =>
    by_cases hd : c = '.'
    · subst hd
      rfl
    · simp [hd]

/-! ## Readers as lexers -/

/-- The answer that is an event. -/
def Answer.ofEvent : Event → Answer
  | .token t => .ok t
  | .error d => .error (.diagnostic d)

namespace Reader

/-- What a reader is, apart from its mode within a call and from what it may give back. -/
def lexer (s : Reader) : Lexer := ⟨s.source, s.buffer.cursor, s.line, s.logical, s.mode.isDone⟩

/-- The answer and the reader that come of an event and the lexer behind it. -/
def Yields (a : Answer × Reader) (e : Event) (l : Lexer) : Prop :=
  a.1 = Answer.ofEvent e ∧ a.2.lexer = l

/-- The answer and the reader that come of what is read at a lexer. -/
def Gives (a : Answer × Reader) (l : Lexer) (x : Lexed) : Prop :=
  Yields a (l.eventOf x) (l.advance x.taken x.rest)

/-- The reader that has taken `u` in front of `r`, and is on the same line. -/
def behind (s : Reader) (u r : Text) (returnable : Bool) : Reader :=
  s.withBuffer ⟨s.buffer.cursor.advance u r, returnable⟩

section
variable {s : Reader} {u r : Text} {k : Bool}

theorem lexer_behind (hu : '\n' ∉ u) : (s.behind u r k).lexer = s.lexer.advance u r := by
  have hcount : u.count '\n' = 0 := List.count_eq_zero.mpr hu
  simp [behind, withBuffer, lexer, Lexer.advance, hcount]

theorem lexer_pass (c : Char) :
    (s.pass c ⟨s.buffer.cursor.advance [c] r, k⟩).lexer = s.lexer.advance [c] r := by
  by_cases hc : c = '\n'
  · simp [pass, lexer, Lexer.advance, hc]
  · simp [pass, lexer, Lexer.advance, hc]

theorem lineText_behind (hr : s.buffer.cursor.rest = u ++ r) (hu : '\n' ∉ u) :
    (s.behind u r k).buffer.lineText none = s.buffer.cursor.lineText := by
  rw [Buffer.lineText_none]
  exact Cursor.lineText_advance hr hu

end

/-! ## Operators -/

section
variable {s : Reader} {c : Char} {r : Text} {k : Bool} (hc : '\n' ∉ [c])

include hc

theorem comparison_gives (single double : Kind) :
    Gives ((s.behind [c] r k).comparison single double c) s.lexer
      (Lexed.comparison single double c r) := by
  by_cases h : r.head? = some '='
  · obtain ⟨t, rfl⟩ := List.head?_eq_some_iff.mp h
    simp only [comparison, Buffer.accept_of_head?_eq (b := (s.behind [c] ('=' :: t) k).buffer) rfl]
    refine ⟨rfl, ?_⟩
    show ((s.behind [c] ('=' :: t) k).behind ['='] t true).lexer = _
    rw [lexer_behind (by decide), lexer_behind hc, Lexer.advance_advance]
    rfl
  · obtain ⟨k', hk'⟩ := Buffer.accept_of_head?_ne (b := (s.behind [c] r k).buffer) h
    simp only [comparison, hk', Lexed.comparison_of_head?_ne _ _ _ h]
    exact ⟨rfl, lexer_behind (s := s) (k := k') hc⟩

theorem operator_gives (hr : s.buffer.cursor.rest = c :: r) (kind : Kind) :
    Gives ((s.behind [c] r k).operator kind c) s.lexer (Lexed.operator kind c r) := by
  have hglance : (s.behind [c] r k).buffer.glance 1 = .ok r.head? := Buffer.glance_one _
  by_cases h : r.head? = some c
  · obtain ⟨t, rfl⟩ := List.head?_eq_some_iff.mp h
    simp only [operator, hglance, h, if_true,
      Buffer.next_of_cons (b := (s.behind [c] (c :: t) k).buffer) rfl, Lexed.operator]
    refine ⟨rfl, ?_⟩
    show ((s.behind [c] (c :: t) k).behind [c] t true).lexer = _
    rw [lexer_behind hc, lexer_behind hc, Lexer.advance_advance]
    rfl
  · simp only [operator, hglance, if_neg h, Lexed.operator_of_unpaired _ h,
      lineText_behind (u := [c]) hr hc]
    exact ⟨rfl, lexer_behind hc⟩

end

/-! ## Loops

First one round of each loop, then by induction on the text in front of it, for
every accumulator and every reader, the whole loop. -/

section
variable {s : Reader} {c : Char} {r : Text}

theorem stringFrom_of_cons (hr : s.buffer.cursor.rest = c :: r) (line : Int) (acc : Text) :
    stringFrom line acc s =
      if c = '"' then (.ok ⟨.string, acc.reverse, line⟩, s.behind [c] r true)
      else stringFrom line (c :: acc) (s.pass c ⟨s.buffer.cursor.advance [c] r, true⟩) := by
  rw [stringFrom, Buffer.next_of_cons hr]
  rfl

theorem lineCommentFrom_of_cons (hr : s.buffer.cursor.rest = c :: r) (line : Int) (acc : Text) :
    lineCommentFrom line acc s =
      if c = '\n' then (.ok ⟨.comment, Lexed.trimReturn acc.reverse, line⟩,
        s.pass c ⟨s.buffer.cursor.advance [c] r, true⟩)
      else lineCommentFrom line (c :: acc) (s.behind [c] r true) := by
  rw [lineCommentFrom, Buffer.next_of_cons hr]
  rfl

theorem blockCommentFrom_of_close (hr : s.buffer.cursor.rest = '*' :: '/' :: r) (line : Int)
    (place : Nat) (acc : Text) :
    blockCommentFrom line place acc s =
      (.ok ⟨.comment, acc.reverse, line⟩, s.behind ['*', '/'] r true) := by
  rw [blockCommentFrom, Buffer.next_of_cons hr]
  simp only [if_true]
  rw [Buffer.accept_of_head?_eq (r := r) rfl]
  rfl

/-- The reader that has looked at a `*` is where any other is that has passed a character. -/
theorem blockCommentFrom_of_not_close (hr : s.buffer.cursor.rest = c :: r)
    (h : ¬ endMark <+: c :: r) (line : Int) (place : Nat) (acc : Text) :
    ∃ k, blockCommentFrom line place acc s =
      blockCommentFrom line place (c :: acc) (s.pass c ⟨s.buffer.cursor.advance [c] r, k⟩) := by
  rw [blockCommentFrom, Buffer.next_of_cons hr]
  by_cases hc : c = '*'
  · subst hc
    have hslash : r.head? ≠ some '/' := fun hs => h (endMark_prefix_iff.mpr ⟨rfl, hs⟩)
    obtain ⟨k, hk⟩ :=
      Buffer.accept_of_head?_ne (b := ⟨s.buffer.cursor.advance ['*'] r, true⟩) hslash
    refine ⟨k, ?_⟩
    simp only [if_true]
    rw [hk]
    rfl
  · exact ⟨true, if_neg hc⟩

theorem wordFrom_of_joins (hr : s.buffer.cursor.rest = c :: r) (h : joinsWord c r = true)
    (acc : Text) : wordFrom acc s = wordFrom (c :: acc) (s.behind [c] r true) := by
  rw [wordFrom, Buffer.joins_of_cons hr, h, Buffer.next_of_cons hr]
  rfl

end

section
variable {s : Reader} {body t : Text} (line : Int) (place : Nat) (acc : Text)

theorem stringFrom_of_closed (hb : '"' ∉ body) (hr : s.buffer.cursor.rest = body ++ '"' :: t) :
    Yields (stringFrom line acc s) (.token ⟨.string, acc.reverse ++ body, line⟩)
      (s.lexer.advance (body ++ ['"']) t) := by
  induction body generalizing s acc with
  | nil =>
    rw [stringFrom_of_cons hr, if_pos rfl, List.append_nil]
    exact ⟨rfl, lexer_behind (by decide)⟩
  | cons c body ih =>
    obtain ⟨hc, hb⟩ := List.ne_and_not_mem_of_not_mem_cons hb
    have hnext := ih (c :: acc) hb (s := s.pass c ⟨s.buffer.cursor.advance [c] _, true⟩) rfl
    rw [lexer_pass, Lexer.advance_advance] at hnext
    rw [stringFrom_of_cons hr, if_neg hc.symm]
    simpa using hnext

theorem stringFrom_of_unclosed (hb : '"' ∉ s.buffer.cursor.rest) :
    Yields (stringFrom line acc s)
      ((s.lexer.advance s.buffer.cursor.rest []).errorHere .unterminatedString)
      (s.lexer.advance s.buffer.cursor.rest []) := by
  induction hr : s.buffer.cursor.rest generalizing s acc with
  | nil =>
    have hl : s.lexer.advance [] [] = s.lexer := Lexer.advance_nil hr
    rw [stringFrom, Buffer.next_of_nil hr, hl]
    simp only [Buffer.lineText_none]
    exact ⟨rfl, rfl⟩
  | cons c body ih =>
    rw [hr] at hb
    obtain ⟨hc, hb⟩ := List.ne_and_not_mem_of_not_mem_cons hb
    have hnext := ih (c :: acc) (s := s.pass c ⟨s.buffer.cursor.advance [c] body, true⟩) hb rfl
    rw [lexer_pass, Lexer.advance_advance] at hnext
    rw [stringFrom_of_cons hr, if_neg hc.symm]
    exact hnext

theorem lineCommentFrom_of_lineFeed (hb : '\n' ∉ body)
    (hr : s.buffer.cursor.rest = body ++ '\n' :: t) :
    Yields (lineCommentFrom line acc s)
      (.token ⟨.comment, Lexed.trimReturn (acc.reverse ++ body), line⟩)
      (s.lexer.advance (body ++ ['\n']) t) := by
  induction body generalizing s acc with
  | nil =>
    rw [lineCommentFrom_of_cons hr, if_pos rfl, List.append_nil]
    exact ⟨rfl, lexer_pass '\n'⟩
  | cons c body ih =>
    obtain ⟨hc, hb⟩ := List.ne_and_not_mem_of_not_mem_cons hb
    have hnext := ih (c :: acc) hb (s := s.behind [c] _ true) rfl
    rw [lexer_behind (by simpa using hc), Lexer.advance_advance] at hnext
    rw [lineCommentFrom_of_cons hr, if_neg hc.symm]
    simpa using hnext

theorem lineCommentFrom_of_not_mem (hb : '\n' ∉ s.buffer.cursor.rest) :
    Yields (lineCommentFrom line acc s)
      (.token ⟨.comment, Lexed.trimReturn (acc.reverse ++ s.buffer.cursor.rest), line⟩)
      (s.lexer.advance s.buffer.cursor.rest []) := by
  induction hr : s.buffer.cursor.rest generalizing s acc with
  | nil =>
    have hl : s.lexer.advance [] [] = s.lexer := Lexer.advance_nil hr
    rw [lineCommentFrom, Buffer.next_of_nil hr, hl, List.append_nil]
    exact ⟨rfl, rfl⟩
  | cons c body ih =>
    rw [hr] at hb
    obtain ⟨hc, hb⟩ := List.ne_and_not_mem_of_not_mem_cons hb
    have hnext := ih (c :: acc) (s := s.behind [c] body true) hb rfl
    rw [lexer_behind (by simpa using hc), Lexer.advance_advance] at hnext
    rw [lineCommentFrom_of_cons hr, if_neg hc.symm]
    simpa using hnext

theorem blockCommentFrom_of_closed
    (h : Lexed.untilClose s.buffer.cursor.rest = some (body, t)) :
    Yields (blockCommentFrom line place acc s) (.token ⟨.comment, acc.reverse ++ body, line⟩)
      (s.lexer.advance (body ++ endMark) t) := by
  induction hr : s.buffer.cursor.rest generalizing s acc body with
  | nil =>
    rw [hr] at h
    cases h
  | cons c u ih =>
    rw [hr] at h
    by_cases hmark : endMark <+: c :: u
    · rw [Lexed.untilClose_cons_of_close hmark] at h
      cases h
      obtain ⟨rfl, hu⟩ := endMark_prefix_iff.mp hmark
      obtain ⟨v, rfl⟩ := List.head?_eq_some_iff.mp hu
      rw [blockCommentFrom_of_close hr, List.append_nil]
      exact ⟨rfl, lexer_behind (by decide)⟩
    · rw [Lexed.untilClose_cons_of_not_close hmark] at h
      obtain ⟨⟨b, v⟩, hbv, h⟩ := Option.map_eq_some_iff.mp h
      cases h
      obtain ⟨k, hk⟩ := blockCommentFrom_of_not_close hr hmark line place acc
      have hnext := ih (c :: acc) (s := s.pass c ⟨s.buffer.cursor.advance [c] u, k⟩) hbv rfl
      rw [lexer_pass, Lexer.advance_advance] at hnext
      rw [hk]
      simpa using hnext

theorem blockCommentFrom_of_unclosed (h : ¬ endMark <:+: s.buffer.cursor.rest) :
    Yields (blockCommentFrom line place acc s)
      (.error ⟨.unterminatedComment, some ⟨s.source, line⟩,
        some (Cursor.lineTextAt s.buffer.text place)⟩)
      (s.lexer.advance s.buffer.cursor.rest []) := by
  induction hr : s.buffer.cursor.rest generalizing s acc with
  | nil =>
    have hl : s.lexer.advance [] [] = s.lexer := Lexer.advance_nil hr
    rw [blockCommentFrom, Buffer.next_of_nil hr, hl]
    exact ⟨rfl, rfl⟩
  | cons c u ih =>
    rw [hr, List.infix_cons_iff, not_or] at h
    obtain ⟨k, hk⟩ := blockCommentFrom_of_not_close hr h.1 line place acc
    have hnext := ih (c :: acc) (s := s.pass c ⟨s.buffer.cursor.advance [c] u, k⟩) h.2 rfl
    have htext : (s.pass c ⟨s.buffer.cursor.advance [c] u, k⟩).buffer.text = s.buffer.text :=
      Cursor.text_advance (show s.buffer.cursor.rest = [c] ++ u from hr)
    rw [lexer_pass, Lexer.advance_advance, htext] at hnext
    rw [hk]
    exact hnext

theorem wordFrom_eq :
    (wordFrom acc s).1 = .ok (acc.reverse ++ (spanWord s.buffer.cursor.rest).1) ∧
      (wordFrom acc s).2.lexer = s.lexer.advance (spanWord s.buffer.cursor.rest).1
        (spanWord s.buffer.cursor.rest).2 := by
  induction hr : s.buffer.cursor.rest generalizing s acc with
  | nil =>
    rw [wordFrom, Buffer.joins_of_nil hr, spanWord_nil, List.append_nil, Lexer.advance_nil hr]
    exact ⟨rfl, rfl⟩
  | cons c u ih =>
    cases hjoins : joinsWord c u with
    | false =>
      rw [wordFrom, Buffer.joins_of_cons hr, hjoins, spanWord_cons_of_not_joins hjoins,
        List.append_nil, Lexer.advance_nil hr]
      exact ⟨rfl, rfl⟩
    | true =>
      have hc : '\n' ∉ [c] := by
        intro hc
        rw [← List.mem_singleton.mp hc] at hjoins
        cases hjoins
      have hnext := ih (c :: acc) (s := s.behind [c] u true) rfl
      rw [lexer_behind hc, Lexer.advance_advance] at hnext
      rw [wordFrom_of_joins hr hjoins, spanWord_cons_of_joins hjoins]
      simpa using hnext

end

/-! ## Everything but spaces -/

/-- The line of a place in front of which nothing but the reader's own line stands. -/
theorem lineTextAt_behind {s : Reader} {u r : Text} {k : Bool}
    (hr : s.buffer.cursor.rest = u ++ r) (hu : '\n' ∉ u) :
    Cursor.lineTextAt s.buffer.text (s.behind u r k).buffer.position =
      s.buffer.cursor.lineText := by
  have htext : (s.buffer.cursor.advance u r).text = s.buffer.cursor.text := Cursor.text_advance hr
  have hline := (s.buffer.cursor.advance u r).lineTextAt_position
  rw [htext, Cursor.lineText_advance hr hu] at hline
  exact hline

theorem lexer_enter {s : Reader} {m : Mode} (hs : s.mode.isDone = false)
    (hm : m.isDone = false) : (s.enter m).lexer = s.lexer := by
  simp [lexer, enter, hs, hm]

theorem lexer_enter_behind {s : Reader} {m : Mode} {u r : Text} {k : Bool}
    (hs : s.mode.isDone = false) (hm : m.isDone = false) (hu : '\n' ∉ u) :
    ((s.behind u r k).enter m).lexer = s.lexer.advance u r := by
  rw [lexer_enter (s := s.behind u r k) hs hm, lexer_behind hu]

section
variable {s : Reader} {c : Char} {r : Text} {k : Bool} (hmode : s.mode.isDone = false)

include hmode

theorem string_gives :
    Gives (stringFrom s.line [] ((s.behind ['"'] r k).enter .inString)) s.lexer
      (Lexed.string r) := by
  have hl : ((s.behind ['"'] r k).enter .inString).lexer = s.lexer.advance ['"'] r :=
    lexer_enter_behind hmode rfl (by decide)
  by_cases h : '"' ∈ r
  · obtain ⟨body, t, rfl, hb⟩ := List.eq_append_cons_of_mem h
    have := stringFrom_of_closed (s := (s.behind ['"'] (body ++ '"' :: t) k).enter .inString)
      s.line [] hb rfl
    rw [hl, Lexer.advance_advance] at this
    rw [Lexed.string_of_not_mem hb]
    exact this
  · have := stringFrom_of_unclosed (s := (s.behind ['"'] r k).enter .inString) s.line [] h
    rw [hl, show ((s.behind ['"'] r k).enter .inString).buffer.cursor.rest = r from rfl,
      Lexer.advance_advance] at this
    rw [Lexed.string_of_unclosed h]
    exact this

theorem lineComment_gives :
    Gives (lineCommentFrom s.line [] ((s.behind ['/', '/'] r k).enter .inLineComment)) s.lexer
      (Lexed.lineComment r) := by
  have hl : ((s.behind ['/', '/'] r k).enter .inLineComment).lexer =
      s.lexer.advance ['/', '/'] r :=
    lexer_enter_behind hmode rfl (by decide)
  by_cases h : '\n' ∈ r
  · obtain ⟨body, t, rfl, hb⟩ := List.eq_append_cons_of_mem h
    have := lineCommentFrom_of_lineFeed
      (s := (s.behind ['/', '/'] (body ++ '\n' :: t) k).enter .inLineComment) s.line [] hb rfl
    rw [hl, Lexer.advance_advance] at this
    rw [Lexed.lineComment_of_lineFeed hb]
    exact this
  · have := lineCommentFrom_of_not_mem
      (s := (s.behind ['/', '/'] r k).enter .inLineComment) s.line [] h
    rw [hl, show ((s.behind ['/', '/'] r k).enter .inLineComment).buffer.cursor.rest = r from rfl,
      Lexer.advance_advance] at this
    rw [Lexed.lineComment_of_not_mem h]
    exact this

theorem blockComment_gives (hr : s.buffer.cursor.rest = '/' :: '*' :: r) :
    Gives (blockCommentFrom s.line (s.behind ['/', '*'] r k).buffer.position []
      ((s.behind ['/', '*'] r k).enter .inBlockComment)) s.lexer (Lexed.blockComment r) := by
  have hl : ((s.behind ['/', '*'] r k).enter .inBlockComment).lexer =
      s.lexer.advance ['/', '*'] r :=
    lexer_enter_behind hmode rfl (by decide)
  by_cases h : endMark <:+: r
  · cases hclose : Lexed.untilClose r with
    | none => exact absurd h (Lexed.untilClose_eq_none_iff.mp hclose)
    | some p =>
      obtain ⟨body, t⟩ := p
      have := blockCommentFrom_of_closed (s := (s.behind ['/', '*'] r k).enter .inBlockComment)
        s.line (s.behind ['/', '*'] r k).buffer.position [] hclose
      rw [hl, Lexer.advance_advance] at this
      rw [Lexed.blockComment, hclose]
      exact this
  · have htext : ((s.behind ['/', '*'] r k).enter .inBlockComment).buffer.text = s.buffer.text :=
      Cursor.text_advance (show s.buffer.cursor.rest = ['/', '*'] ++ r from hr)
    have := blockCommentFrom_of_unclosed (s := (s.behind ['/', '*'] r k).enter .inBlockComment)
      s.line (s.behind ['/', '*'] r k).buffer.position [] h
    rw [htext, lineTextAt_behind (u := ['/', '*']) hr (by decide), hl,
      show ((s.behind ['/', '*'] r k).enter .inBlockComment).buffer.cursor.rest = r from rfl,
      Lexer.advance_advance] at this
    rw [Lexed.blockComment_of_unclosed h]
    exact this

theorem slash_gives (hr : s.buffer.cursor.rest = '/' :: r) :
    Gives (s.behind ['/'] r k).slash s.lexer (Lexed.slash r) := by
  by_cases hline : r.head? = some '/'
  · obtain ⟨t, rfl⟩ := List.head?_eq_some_iff.mp hline
    simp only [slash, Buffer.accept_of_head?_eq (b := (s.behind ['/'] ('/' :: t) k).buffer) rfl]
    exact lineComment_gives hmode
  · obtain ⟨k', hk'⟩ := Buffer.accept_of_head?_ne (b := (s.behind ['/'] r k).buffer) hline
    by_cases hblock : r.head? = some '*'
    · obtain ⟨t, rfl⟩ := List.head?_eq_some_iff.mp hblock
      simp only [slash, hk', Buffer.accept_of_head?_eq
        (b := (s.behind ['/'] ('*' :: t) k).buffer.withReturn k') rfl]
      exact blockComment_gives hmode hr
    · obtain ⟨k'', hk''⟩ :=
        Buffer.accept_of_head?_ne (b := (s.behind ['/'] r k).buffer.withReturn k') hblock
      simp only [slash, hk', hk'', Lexed.slash_of_head?_ne hline hblock]
      exact ⟨rfl, lexer_behind (s := s) (k := k'') (by decide)⟩

/-- A word is taken within a line, and the line can still be found by the place in front of it. -/
theorem exists_wordFrom (t : Text) (ht : s.buffer.cursor.rest = t) :
    ∃ s', (s.enter .inWord).wordFrom [] = (.ok (spanWord t).1, s') ∧
      s'.lexer = s.lexer.advance (spanWord t).1 (spanWord t).2 ∧
      s'.source = s.source ∧ s'.line = s.line ∧
      ∀ b : Buffer, b.text = s'.buffer.text →
        b.lineText (some s.buffer.position) = s.buffer.cursor.lineText := by
  have hl : (s.enter .inWord).lexer = s.lexer := lexer_enter hmode rfl
  have hcount : (spanWord t).1.count '\n' = 0 :=
    List.count_eq_zero.mpr (joined_spanWord t).lineFeed_not_mem
  obtain ⟨hword, hbehind⟩ := wordFrom_eq (s := s.enter .inWord) []
  rw [show (s.enter .inWord).buffer.cursor.rest = t from ht, hl] at hbehind
  rw [show (s.enter .inWord).buffer.cursor.rest = t from ht] at hword
  refine ⟨_, Prod.ext hword rfl, hbehind, congrArg Lexer.source hbehind, ?_, fun b hb => ?_⟩
  · have hline := congrArg Lexer.line hbehind
    rw [Lexer.advance, hcount] at hline
    exact hline.trans (Int.add_zero _)
  · have htext := congrArg (·.cursor.text) hbehind
    have hsame : b.text = s.buffer.text :=
      (hb.trans htext).trans (Cursor.text_advance (ht.trans (spanWord_append t).symm))
    rw [Buffer.lineText, hsame]
    exact s.buffer.cursor.lineTextAt_position

theorem word_gives (hr : s.buffer.cursor.rest = c :: r) (hc : '\n' ∉ [c]) :
    Gives s.word s.lexer (Lexed.word c r) := by
  obtain ⟨s', hword, hbehind, hsource, hline, hplace⟩ := exists_wordFrom hmode _ hr
  have happend := spanWord_append (c :: r)
  cases hspan : spanWord (c :: r) with
  | mk w t =>
    rw [hspan] at hword hbehind happend
    cases w with
    | nil =>
      obtain rfl : t = c :: r := happend
      have hnext := Buffer.next_of_cons (congrArg (·.cursor.rest) hbehind)
      simp only [word, hword, hnext, Lexed.word, hspan, hplace _ (Buffer.text_of_next hnext),
        refuse, hline]
      refine ⟨?_, ?_⟩
      · exact congrArg (fun name => Except.error (Stop.diagnostic
          ⟨.invalidToken [c], some ⟨name, s.line⟩, some s.buffer.cursor.lineText⟩)) hsource
      · show (s'.behind [c] r true).lexer = _
        rw [lexer_behind hc, hbehind, Lexer.advance_advance]
        rfl
    | cons d w =>
      cases hkind : Kind.ofWord? (d :: w) with
      | some kind =>
        simp only [word, hword, Lexed.word, hspan, hkind, token, hline]
        exact ⟨rfl, hbehind⟩
      | none =>
        simp only [word, hword, Lexed.word, hspan, hkind, hplace _ rfl, refuse, hsource, hline]
        exact ⟨rfl, hbehind⟩

omit hmode in
theorem read_of_no_table (hp : Kind.punctuation.lookup c = none)
    (hq : Kind.comparisons.lookup c = none)
    (hl : ¬ ∃ kind, s.logical = true ∧ Kind.logical.lookup c = some kind) :
    s.read c =
      if c = '/' then s.slash
      else if c = '"' then stringFrom s.line [] (s.enter .inString)
      else
        match s.buffer.giveBack with
        | .ok b => (s.withBuffer b).word
        | .error e => s.complain e := by
  unfold read
  rw [hp, hq]
  split
  · next h => cases h
  · next h => cases h
  · next kind _ _ hk hon => exact absurd ⟨kind, hon, hk⟩ hl
  · rfl

/-- **Every character that is no space.**  What a reader makes of it is what the lexer reads. -/
theorem read_gives (hr : s.buffer.cursor.rest = c :: r) (hspace : isSpace c = false) :
    Gives ((s.behind [c] r true).read c) s.lexer (Lexed.read s.logical c r) := by
  have hc : '\n' ∉ [c] := by
    intro h
    rw [← List.mem_singleton.mp h] at hspace
    cases hspace
  cases hp : Kind.punctuation.lookup c with
  | some kind =>
    simp only [read, Lexed.read, hp]
    exact ⟨rfl, lexer_behind hc⟩
  | none =>
    cases hq : Kind.comparisons.lookup c with
    | some kinds =>
      simp only [read, Lexed.read, hp, hq]
      exact comparison_gives hc _ _
    | none =>
      by_cases hl : ∃ kind, s.logical = true ∧ Kind.logical.lookup c = some kind
      · obtain ⟨kind, hon, hk⟩ := hl
        have hbehind : (s.behind [c] r true).logical = true := hon
        simp only [read, Lexed.read, hp, hq, hk, hon, hbehind]
        exact operator_gives hc hr kind
      · rw [Lexed.read_of_no_table hp hq hl, read_of_no_table (s := s.behind [c] r true) hp hq hl]
        split
        · next h =>
          subst h
          exact slash_gives hmode hr
        · split
          · next h =>
            subst h
            exact string_gives hmode
          · have hnext := Buffer.next_of_cons hr
            have hback : (s.behind [c] r true).buffer.giveBack =
                .ok (s.buffer.withReturn false) := Buffer.giveBack_of_next hnext
            simp only [hback]
            exact word_gives (s := s.withBuffer (s.buffer.withReturn false)) hmode hr hc

end

end Reader

end LoxLexer
