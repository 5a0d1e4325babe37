import LoxLexer.Proofs.Calls
import LoxLexer.Proofs.LineEndings
import LoxLexer.Proofs.LongestMatch
import LoxLexer.Proofs.OperatorSwitch

/-!
# What calls answer

A reader answers the events of its lexer, and writes their lines.  So what is
true of events is true of answers, with a stop in place of every answer whose
line cannot be written: the pieces of the source that calls take, where calls
fail and with what, the line and the length of what they answer, and how answers
change with the switch for logical operators and with the ends of lines.

    calls cut the source into spaces and source forms                (calls_tile_source)
    a call fails where the front is rejected, or its line too long   (call_rejects_exactly)
    answered lines are exact and in order                            (lines_of_calls)
    an answered token is the longest match                           (call_takes_longest)
    the switch changes the answers that are about operators          (answers_without_operators)
    carriage returns leave answers as they are                       (answers_crlf)
-/

namespace LoxLexer

/-- The line of a token or of a diagnostic. -/
def Answer.line? : Answer → Option Int
  | .ok t => some t.line
  | .error (.diagnostic d) => d.line
  | .error _ => none

namespace Reader

/-! ## Pieces of the source -/

/-- Pieces that follow one another make up the text so far. -/
theorem flatMap_piece {s : Reader} (text : Text) (h0 : s.place 0 = 0)
    (hmono : ∀ k, s.place k ≤ s.place (k + 1)) (n : Nat) :
    (List.range n).flatMap (s.piece text) = text.take (s.place n) := by
  induction n with
  | zero => simp [h0]
  | succ n ih =>
    have hcut : (text.take (s.place (n + 1))).take (s.place n) = text.take (s.place n) := by
      rw [List.take_take, Nat.min_eq_left (hmono n)]
    rw [List.range_succ, List.flatMap_append, ih, List.flatMap_singleton, piece, ← hcut,
      List.take_append_drop]

end Reader

/-! ## Rejections -/

namespace Lexer

variable {l : Lexer} {first : Int} {text : Text}

/-- A token is on the line where its source form begins. -/
theorem line_of_token {t : Token} (h : l.next.1 = .token t) : t.line = l.skipSpace.line := by
  rcases l.next_cases with ⟨-, hn⟩ | ⟨-, ⟨k, x, he, -⟩ | ⟨cause, he, -⟩⟩
  · rw [hn] at h
    cases h
    rfl
  · rw [he] at h
    cases h
    rfl
  · rw [he] at h
    cases h

/-- The diagnostic of a rejection, with the line that is shown: the last one for a string that runs
out, and otherwise the one where the front begins. -/
theorem Placed.next_of_rejected (h : l.Placed first text) {cause : Cause} {w s : Text}
    (hfront : l.front = w ++ s) (hr : Rejected l.logical cause w s) :
    let line : Int := first + ((if cause = .unterminatedString then text
      else text.take (l.cursor.position + l.spaces.length)).count '\n' : Nat)
    l.next.1 =
      .error ⟨cause, some ⟨l.source, line⟩, text.lines[(line - first).toNat]?⟩ := by
  intro line
  obtain ⟨⟨location, sourceLine, he⟩, -⟩ := Lexer.next_of_rejected hfront hr
  obtain ⟨n, -, hlocation, shown, hshown, hsourceLine⟩ := h.pointsAt_next he
  have hn : first + (n : Int) = line := by
    have hline := h.line?_next
    rw [he] at hline
    have hin : Event.lineIn first text (l.cursor.position + l.spaces.length)
        (.error ⟨cause, location, sourceLine⟩) = line := by
      cases cause <;> rfl
    rw [hin] at hline
    obtain rfl : location = some ⟨l.source, first + n⟩ := hlocation
    exact Option.some.inj hline
  have hnumber : (line - first).toNat = n := by omega
  obtain rfl : location = some ⟨l.source, first + n⟩ := hlocation
  obtain rfl : sourceLine = some shown := hsourceLine
  rw [he, hnumber, hshown, ← hn]

end Lexer

namespace Reader

/-- A reader that keeps an end token comes to no error. -/
theorem Settled.isDone_of_error {s : Reader} (h : s.Settled) {d : Diagnostic}
    (hd : s.lexer.next.1 = .error d) : s.mode.isDone = false := by
  rw [Bool.eq_false_iff]
  intro hdone
  obtain ⟨-, hfront, -⟩ := h.lexer_of_done hdone
  rw [(Lexer.next_of_front_nil hfront).2] at hd
  cases hd

section
variable {s : Reader} (h : s.Settled)

include h

/-- A call whose front is rejected takes what is rejected, and reports the cause if it can. -/
theorem Settled.call_of_rejected {first : Int} {text : Text} (hplaced : s.lexer.Placed first text)
    {cause : Cause} {w rest : Text} (hfront : s.lexer.front = w ++ rest)
    (hr : Rejected s.logical cause w rest) :
    let place := s.buffer.position + s.lexer.spaces.length
    let line : Int :=
      first + ((if cause = .unterminatedString then text else text.take place).count '\n' : Nat)
    s.call.2.buffer.position = place + w.length ∧
      s.call.1 =
        if Number.isWritable line then
          .error (.diagnostic ⟨cause, some ⟨s.source, line⟩, text.lines[(line - first).toNat]?⟩)
        else .error .lineTooLong := by
  intro place line
  have hevent := hplaced.next_of_rejected hfront hr
  obtain ⟨-, htaken, -⟩ := Lexer.next_of_rejected hfront hr
  constructor
  · have hposition := congrArg (·.cursor.position) h.lexer_call
    rw [s.lexer.position_next, htaken] at hposition
    exact hposition
  · rw [h.answer_of_not_done (h.isDone_of_error hevent), hevent]
    exact Event.answer_of_line rfl

/-- A call whose front is not rejected gives a token if its line can be written. -/
theorem Settled.call_of_not_rejected
    (hnone : ∀ cause w rest, s.lexer.front = w ++ rest → ¬ Rejected s.logical cause w rest) :
    if s.mode.isDone || Number.isWritable s.lexer.skipSpace.line then
      ∃ t, s.call.1 = .ok t ∧ t.line = s.lexer.skipSpace.line
    else s.call.1 = .error .lineTooLong := by
  cases hevent : s.lexer.next.1 with
  | error d =>
    exact absurd (Lexer.rejected_of_next hevent) (hnone _ _ _ s.lexer.front_eq_next)
  | token t =>
    have hline := Lexer.line_of_token hevent
    have hanswer := h.answer_call
    rw [hevent, Answer.ofEvent] at hanswer
    rw [← hline]
    cases hdone : s.mode.isDone with
    | true =>
      rw [hdone, if_pos rfl] at hanswer
      exact ⟨t, hanswer, rfl⟩
    | false =>
      rw [hdone, if_neg Bool.false_ne_true] at hanswer
      cases hwritable : Number.isWritable t.line with
      | true => exact ⟨t, hanswer.trans (logged_of_writable hwritable), rfl⟩
      | false => exact hanswer.trans (logged_of_not_writable hwritable)

/-- A call fails where its front is rejected, and where it would have to write a line too long. -/
theorem Settled.call_fails_iff {first : Int} {text : Text} (hplaced : s.lexer.Placed first text) :
    (∃ e, s.call.1 = .error e) ↔
      (∃ cause w rest, s.lexer.front = w ++ rest ∧ Rejected s.logical cause w rest) ∨
        s.mode.isDone = false ∧ Number.isWritable s.lexer.skipSpace.line = false := by
  by_cases hexists :
      ∃ cause w rest, s.lexer.front = w ++ rest ∧ Rejected s.logical cause w rest
  · refine iff_of_true ?_ (Or.inl hexists)
    obtain ⟨cause, w, rest, hfront, hr⟩ := hexists
    obtain ⟨-, hcall⟩ := h.call_of_rejected hplaced hfront hr
    exact ⟨_, hcall.trans (apply_ite Except.error _ _ _).symm⟩
  · have hcall := h.call_of_not_rejected fun cause w rest hfront hr =>
      hexists ⟨cause, w, rest, hfront, hr⟩
    rw [or_iff_right hexists]
    constructor
    · rintro ⟨e, he⟩
      split at hcall
      · obtain ⟨t, ht, -⟩ := hcall
        rw [he] at ht
        cases ht
      · next hcondition =>
        rwa [Bool.or_eq_true, not_or, Bool.not_eq_true, Bool.not_eq_true] at hcondition
    · rintro ⟨hdone, hwritable⟩
      rw [hdone, hwritable] at hcall
      exact ⟨_, hcall⟩

end

theorem line?_ofEvent (e : Event) : (Answer.ofEvent e).line? = e.line? := by
  cases e <;> rfl

/-- What is logged has its line still, or has none. -/
theorem line?_logged (a : Answer) : (logged a).line? = a.line? ∨ (logged a).line? = none := by
  unfold logged
  split
  · split
    · exact Or.inl rfl
    · exact Or.inr rfl
  · split
    · exact Or.inl rfl
    · exact Or.inr rfl
  · exact Or.inl rfl

section
variable {s : Reader} (h : s.Settled)

include h

theorem Settled.line?_call : s.call.1.line? = s.lexer.next.1.line? ∨ s.call.1.line? = none := by
  rw [h.answer_call]
  split
  · exact Or.inl (line?_ofEvent _)
  · rw [← line?_ofEvent]
    exact line?_logged _

/-- The lines of answers are lines of events, with some left out. -/
theorem Settled.lines_run (history : List Lexer.Action) :
    ((s.run history).1.filterMap Answer.line?).Sublist
      ((s.lexer.run history).1.filterMap Event.line?) := by
  induction history generalizing s with
  | nil => exact List.Sublist.refl _
  | cons a as ih =>
    obtain ⟨hact, hlexer⟩ := h.act a
    have hrest := ih hact
    rw [hlexer] at hrest
    cases a with
    | setLogical logical => exact hrest
    | next =>
      show ((s.call.1 :: (s.call.2.run as).1).filterMap Answer.line?).Sublist
        ((s.lexer.next.1 :: (s.lexer.next.2.run as).1).filterMap Event.line?)
      obtain ⟨n, hn, -⟩ := s.lexer.exists_line?_next
      rw [List.filterMap_cons_some hn]
      rcases h.line?_call with hline | hline
      · rw [List.filterMap_cons_some (hline.trans hn)]
        exact hrest.cons_cons n
      · rw [List.filterMap_cons_none hline]
        exact hrest.cons n

end

/-- **Answered lines are exact.**  Behind any history, the reader's line counts the line feeds in
front of it, a token or a diagnostic has the line of the place where its source form begins, and the
lines of the answers so far are in order. -/
theorem lines_of_calls (source : Text) (first : Int) (logical : Bool) (text : Text)
    (history : List Lexer.Action) :
    let before := (start source first logical text).run history
    let s := before.2
    let begins := s.buffer.position + ((text.drop s.buffer.position).takeWhile isSpace).length
    s.line = first + ((text.take s.buffer.position).count '\n' : Nat) ∧
      (∀ t, s.call.1 = .ok t → t.line = (Event.token t).lineIn first text begins) ∧
      (∀ d, s.call.1 = .error (.diagnostic d) →
        d.line = some ((Event.error d).lineIn first text begins)) ∧
      ((before.1 ++ [s.call.1]).filterMap Answer.line?).Pairwise (· ≤ ·) := by
  intro before s begins
  have hstart := settled_start source first logical text
  obtain ⟨hsettled, -⟩ : s.Settled ∧ _ := hstart.run history
  have hplaced : s.lexer.Placed first text := placed_run source first logical text history
  have hbegins : begins = s.lexer.cursor.position + s.lexer.spaces.length :=
    congrArg (s.lexer.cursor.position + ·.length) hplaced.takeWhile_drop
  have hline := hplaced.line?_next
  rw [← hbegins] at hline
  refine ⟨hplaced.line_eq_take, ?_, ?_, ?_⟩
  · intro t ht
    rw [hsettled.next_of_call_ok ht] at hline
    exact Option.some.inj hline
  · intro d hd
    rw [hsettled.next_of_call hd] at hline
    exact hline
  · have hrun : ((start source first logical text).run (history ++ [.next])).1 =
        before.1 ++ [s.call.1] := by
      rw [run_append]
      rfl
    have hlines := hstart.lines_run (history ++ [.next])
    rw [hrun] at hlines
    exact (Lexer.pairwise_filterMap_line? _ _).sublist hlines

/-! ## The longest match -/

/-- **An answered token is the longest match.**  Behind any history, what a token takes behind the
spaces is a token text of its kind and of no other kind, and no longer beginning of what was left is
a token text at all. -/
theorem call_takes_longest (source : Text) (first : Int) (logical : Bool) (text : Text)
    (history : List Lexer.Action) :
    let s := ((start source first logical text).run history).2
    let front := (text.drop s.buffer.position).dropWhile isSpace
    ∀ t, s.call.1 = .ok t → t.kind ≠ .endOfInput →
      ∃ w, front = w ++ text.drop s.call.2.buffer.position ∧
        (∀ k, TokenText s.logical k w ↔ k = t.kind) ∧
        ∀ v, v <+: front → w.length < v.length → ∀ k, ¬ TokenText s.logical k v := by
  intro s front t ht hk
  obtain ⟨hsettled, -⟩ := (settled_start source first logical text).run history
  have hplaced : s.lexer.Placed first text := placed_run source first logical text history
  have hfront : front = s.lexer.front := hplaced.dropWhile_drop
  have hrest : text.drop s.call.2.buffer.position = s.lexer.next.2.cursor.rest := by
    have hposition : s.call.2.buffer.position = s.lexer.next.2.cursor.position :=
      congrArg (·.cursor.position) hsettled.lexer_call
    rw [hposition]
    exact hplaced.next.drop_position
  obtain ⟨hkind, hlongest⟩ := Lexer.longest_of_token (hsettled.next_of_call_ok ht) hk
  rw [← hfront] at hlongest
  refine ⟨s.lexer.taken, ?_, hkind, hlongest⟩
  rw [hfront, hrest]
  exact s.lexer.front_eq_next

/-! ## The switch for logical operators -/

end Reader

/-! ## Line endings -/

/-- `a.Crlf w a'`: the answer `a'` in the text with carriage returns corresponds to the answer `a`,
for which `w` was taken from the text. -/
inductive Answer.Crlf (w : Text) : Answer → Answer → Prop
  | event {e e' : Event} (h : e.Crlf w e') : Crlf w (.ofEvent e) (.ofEvent e')
  | unwritten : Crlf w (.error .lineTooLong) (.error .lineTooLong)

/-- Events that correspond are on the same line, so that both can be written or neither. -/
theorem Event.Crlf.answer {w : Text} {e e' : Event} (h : e.Crlf w e') {n : Int}
    (hn : e.line? = some n) : Answer.Crlf w e.answer e'.answer := by
  have hn' : e'.line? = some n := by
    cases h <;> exact hn
  rw [Event.answer_of_line hn, Event.answer_of_line hn']
  split
  · exact .event h
  · exact .unwritten

namespace Reader

/-- **Line endings do not matter to answers.**  Call by call, a source without carriage returns and
the source with one in front of every line feed are answered alike. -/
theorem answers_crlf (source : Text) (first : Int) (logical : Bool) {text : Text}
    (h : '\r' ∉ text) (n : Nat) :
    let s := start source first logical (Input.dropMark text)
    let s' := start source first logical (Input.dropMark text.crlf)
    (s.answer n).Crlf (s.lexer.after n).taken (s'.answer n) := by
  intro s s'
  have hreturn : '\r' ∉ Input.dropMark text := fun hmem =>
    h ((Input.dropMark_suffix text).mem hmem)
  have hcrlf : Lexer.Crlf first (Input.dropMark text) s.lexer s'.lexer := by
    simp only [s, s', Input.dropMark_crlf]
    exact Lexer.Crlf.start source first logical hreturn
  have hs : s.Settled := settled_start source first logical _
  have hs' : s'.Settled := settled_start source first logical _
  have hdone : (s'.calls n).2.mode.isDone = (s.calls n).2.mode.isDone := by
    cases n with
    | zero => rfl
    | succ n =>
      rw [Bool.eq_iff_iff, hs.isDone_calls_succ, hs'.isDone_calls_succ]
      exact (hcrlf.after n).front_eq_nil_iff
  have hevent : (s.lexer.event n).Crlf (s.lexer.after n).taken (s'.lexer.event n) :=
    (hcrlf.after n).next.1
  obtain ⟨hsettled, hlexer⟩ := hs.calls n
  obtain ⟨hsettled', hlexer'⟩ := hs'.calls n
  obtain ⟨line, hline, -⟩ := (s.lexer.after n).exists_line?_next
  rw [answer, answer, hsettled.answer_call, hsettled'.answer_call, hdone, hlexer, hlexer']
  split
  · exact .event hevent
  · exact hevent.answer hline

end Reader

end LoxLexer
