import LoxLexer.Proofs.CharacterReading
import LoxLexer.Proofs.LineNumbers

/-!
# Calls of a reader

Between two calls a reader is a lexer: it is between tokens, or it keeps the end
token and has nothing left, and what it may still give back to its buffer does
not matter.  A call of the one is a call of the other.

    s.scan yields s.lexer.next                                           (scan_yields)
    s.Settled → s.call.2.lexer = s.lexer.next.2                          (Settled.lexer_call)
    s.Settled → s.call.2.Settled                                         (Settled.call)
    where every line can be written, histories yield the lexer's events  (Settled.answers_run)
-/

namespace LoxLexer

namespace Reader

/-! ## Calls -/

section
variable {s : Reader}

theorem scan_of_cons {c : Char} {r : Text} (hr : s.buffer.cursor.rest = c :: r) :
    s.scan =
      if isSpace c then (s.pass c ⟨s.buffer.cursor.advance [c] r, true⟩).scan
      else (s.behind [c] r true).read c := by
  rw [scan, Buffer.next_of_cons hr]
  rfl

theorem scan_of_nil (hr : s.buffer.cursor.rest = []) :
    s.scan = (.ok s.lexer.endToken, s.enter (.done s.lexer.endToken)) := by
  rw [scan, Buffer.next_of_nil hr]
  rfl

/-- **One call, character by character.**  A reader that is not at the end comes to what the lexer
comes to, and at the end it keeps the end token. -/
theorem scan_yields (hmode : s.mode.isDone = false) :
    Yields s.scan s.lexer.next.1 s.lexer.next.2 ∧
      (s.lexer.front = [] → s.scan.2.mode = .done s.lexer.finish.endToken) := by
  induction hr : s.buffer.cursor.rest generalizing s with
  | nil =>
    have hfront : s.lexer.front = [] := Lexer.front_eq_nil_iff.mpr (by simp [lexer, hr])
    rw [(Lexer.next_of_front_nil hfront).2, Lexer.finish_of_nil hr, scan_of_nil hr]
    exact ⟨⟨rfl, rfl⟩, fun _ => rfl⟩
  | cons c r ih =>
    rw [scan_of_cons hr]
    cases hspace : isSpace c with
    | true =>
      have hone : ∀ d ∈ [c], isSpace d = true := by simpa using hspace
      have hnext := ih (s := s.pass c ⟨s.buffer.cursor.advance [c] r, true⟩) hmode rfl
      rw [lexer_pass, Lexer.next_advance (u := [c]) hr hone,
        Lexer.front_advance (u := [c]) hr hone, Lexer.finish_advance (u := [c]) hr hone] at hnext
      exact hnext
    | false =>
      have hrest : s.lexer.cursor.rest = [] ++ c :: r := hr
      have hfront : s.lexer.front = c :: r := Lexer.front_of_spaces hrest (by simp) hspace
      have hskip : s.lexer.skipSpace = s.lexer :=
        Lexer.skipSpace_of_front_eq (hfront.trans hr.symm)
      obtain ⟨-, hevent, hnext⟩ := Lexer.next_of_front_cons hfront
      rw [hevent, hnext, hskip]
      exact ⟨read_gives hmode hr hspace, fun h => by rw [hfront] at h; cases h⟩

/-- What is between two calls: the reader is between tokens, or it keeps the end token and has
nothing left. -/
def Settled (s : Reader) : Prop :=
  s.mode = .betweenTokens ∨ s.mode = .done s.lexer.endToken ∧ s.buffer.cursor.rest = []

theorem settled_start (source : Text) (first : Int) (logical : Bool) (text : Text) :
    (start source first logical text).Settled := Or.inl rfl

theorem lexer_settle (s : Reader) : s.settle.lexer = s.lexer := by
  cases hm : s.mode <;> simp [settle, lexer, enter, hm, Mode.isDone]

theorem mode_settle (s : Reader) :
    s.settle.mode = if s.mode.isDone then s.mode else .betweenTokens := by
  cases hm : s.mode <;> simp [settle, enter, hm, Mode.isDone]

theorem call_of_done {t : Token} (h : s.mode = .done t) : s.call = (.ok t, s) := by
  rw [call, h]

theorem call_of_not_done (h : s.mode.isDone = false) :
    s.call = (logged s.scan.1, s.scan.2.settle) := by
  unfold call
  split
  · next hm =>
    rw [hm] at h
    cases h
  · rfl

theorem Settled.lexer_of_done (h : s.Settled) (hdone : s.mode.isDone = true) :
    s.mode = .done s.lexer.endToken ∧ s.lexer.front = [] ∧ s.lexer.finish = s.lexer := by
  rcases h with hm | ⟨hm, hrest⟩
  · rw [hm] at hdone
    cases hdone
  · refine ⟨hm, Lexer.front_eq_nil_iff.mpr (by simp [lexer, hrest]), ?_⟩
    rw [Lexer.finish_of_nil hrest]
    simp [lexer, hdone]

/-- A call of a settled reader is a call of its lexer. -/
theorem Settled.lexer_call (h : s.Settled) : s.call.2.lexer = s.lexer.next.2 := by
  cases hdone : s.mode.isDone with
  | true =>
    obtain ⟨hm, hfront, hfinish⟩ := h.lexer_of_done hdone
    rw [call_of_done hm, (Lexer.next_of_front_nil hfront).2, hfinish]
  | false =>
    rw [call_of_not_done hdone, lexer_settle]
    exact (scan_yields hdone).1.2

/-- Behind a call, a reader has kept the end token or is between tokens. -/
theorem Settled.mode_call (h : s.Settled) :
    s.call.2.mode =
      if s.lexer.front = [] then .done s.lexer.finish.endToken else .betweenTokens := by
  cases hdone : s.mode.isDone with
  | true =>
    obtain ⟨hm, hfront, hfinish⟩ := h.lexer_of_done hdone
    rw [call_of_done hm, if_pos hfront, hfinish, hm]
  | false =>
    obtain ⟨⟨-, hbehind⟩, hend⟩ := scan_yields hdone
    rw [call_of_not_done hdone, mode_settle]
    by_cases hfront : s.lexer.front = []
    · rw [if_pos hfront, hend hfront]
      rfl
    · have hfinished : s.scan.2.mode.isDone = false :=
        (congrArg Lexer.finished hbehind).trans ((Lexer.finished_next hfront).trans hdone)
      rw [if_neg hfront, hfinished]
      rfl

theorem Settled.call (h : s.Settled) : s.call.2.Settled := by
  by_cases hfront : s.lexer.front = []
  · have hlexer : s.call.2.lexer = s.lexer.finish := by
      rw [h.lexer_call, (Lexer.next_of_front_nil hfront).2]
    have hmode := h.mode_call
    rw [if_pos hfront, ← hlexer] at hmode
    exact Or.inr ⟨hmode, (congrArg (·.cursor.rest) hlexer).trans hfront⟩
  · have hmode := h.mode_call
    rw [if_neg hfront] at hmode
    exact Or.inl hmode

/-- The answer to a call is the lexer's event.  Only the end token that is kept is not logged. -/
theorem Settled.answer_call (h : s.Settled) :
    s.call.1 =
      if s.mode.isDone then Answer.ofEvent s.lexer.next.1
      else logged (Answer.ofEvent s.lexer.next.1) := by
  cases hdone : s.mode.isDone with
  | true =>
    obtain ⟨hm, hfront, hfinish⟩ := h.lexer_of_done hdone
    rw [call_of_done hm, (Lexer.next_of_front_nil hfront).2, hfinish]
    rfl
  | false =>
    rw [call_of_not_done hdone, (scan_yields hdone).1.1]
    rfl

theorem Settled.answer_of_not_done (h : s.Settled) (hmode : s.mode.isDone = false) :
    s.call.1 = logged (Answer.ofEvent s.lexer.next.1) := by
  rw [h.answer_call, hmode, if_neg Bool.false_ne_true]

/-! ## Histories -/

/-- What the user of a reader may do is what the user of a lexer may do. -/
def act (s : Reader) : Lexer.Action → List Answer × Reader
  | .next => ([s.call.1], s.call.2)
  | .setLogical logical => ([], s.setLogical logical)

/-- The answers that a history yields, and the reader behind it. -/
def run (s : Reader) : List Lexer.Action → List Answer × Reader
  | [] => ([], s)
  | a :: as => ((s.act a).1 ++ ((s.act a).2.run as).1, ((s.act a).2.run as).2)

theorem run_append (s : Reader) (as bs : List Lexer.Action) :
    s.run (as ++ bs) =
      ((s.run as).1 ++ ((s.run as).2.run bs).1, ((s.run as).2.run bs).2) := by
  induction as generalizing s with
  | nil => rfl
  | cons a as ih => simp [run, ih]

theorem Settled.act (h : s.Settled) (a : Lexer.Action) :
    (s.act a).2.Settled ∧ (s.act a).2.lexer = (s.lexer.act a).2 := by
  cases a with
  | next => exact ⟨h.call, h.lexer_call⟩
  | setLogical logical => exact ⟨h, rfl⟩

theorem Settled.run (h : s.Settled) (history : List Lexer.Action) :
    (s.run history).2.Settled ∧ (s.run history).2.lexer = (s.lexer.run history).2 := by
  induction history generalizing s with
  | nil => exact ⟨h, rfl⟩
  | cons a as ih =>
    obtain ⟨hact, hlexer⟩ := h.act a
    have hrun := ih hact
    rw [hlexer] at hrun
    exact hrun

section
variable (source : Text) (first : Int) (logical : Bool) (text : Text)
  (history : List Lexer.Action)

/-- Behind any history, a reader has its place in the text, and the name of the source. -/
theorem placed_run :
    ((start source first logical text).run history).2.lexer.Placed first text := by
  rw [((settled_start source first logical text).run history).2]
  exact (Lexer.placed_start source first logical text).run history

theorem source_run : ((start source first logical text).run history).2.source = source := by
  show ((start source first logical text).run history).2.lexer.source = source
  rw [((settled_start source first logical text).run history).2]
  exact Lexer.source_run _ history

end

theorem logged_ofEvent {e : Event} (h : ∀ n, e.line? = some n → Number.isWritable n = true) :
    logged (Answer.ofEvent e) = Answer.ofEvent e := by
  cases e with
  | token t => simp only [Answer.ofEvent, logged, h t.line rfl, if_true]
  | error d =>
    have hall : d.line.all Number.isWritable = true := (Option.all_eq_true _ _).mpr h
    simp only [Answer.ofEvent, logged, hall, if_true]

section
variable {first : Int} {text : Text} (hplaced : s.lexer.Placed first text)
  (hwritable : ∀ n ≤ text.count '\n', Number.isWritable (first + n) = true)

include hplaced hwritable

theorem Settled.answer_eq (h : s.Settled) : s.call.1 = Answer.ofEvent s.lexer.next.1 := by
  have hline : ∀ n, s.lexer.next.1.line? = some n → Number.isWritable n = true := by
    intro n hn
    obtain ⟨m, hm, heq⟩ := exists_lineIn_eq first text
      (s.lexer.cursor.position + s.lexer.spaces.length) s.lexer.next.1
    rw [hplaced.line?_next, heq] at hn
    cases hn
    exact hwritable m hm
  rw [h.answer_call, logged_ofEvent hline, ite_self]

/-- **Histories are those of the lexer.**  Where every line can be written, the calls of a reader
yield the events of its lexer. -/
theorem Settled.answers_run (h : s.Settled) (history : List Lexer.Action) :
    (s.run history).1 = (s.lexer.run history).1.map Answer.ofEvent := by
  induction history generalizing s with
  | nil => rfl
  | cons a as ih =>
    obtain ⟨hact, hlexer⟩ := h.act a
    have hrest := ih (hlexer ▸ hplaced.act a) hact
    rw [hlexer] at hrest
    have hanswers : (s.act a).1 = (s.lexer.act a).1.map Answer.ofEvent := by
      cases a with
      | setLogical logical => rfl
      | next => exact congrArg (fun answer => [answer]) (h.answer_eq hplaced hwritable)
    show (s.act a).1 ++ ((s.act a).2.run as).1 =
      ((s.lexer.act a).1 ++ ((s.lexer.act a).2.run as).1).map Answer.ofEvent
    rw [hanswers, hrest, List.map_append]

end

end

end Reader

end LoxLexer
