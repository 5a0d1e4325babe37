import LoxLexer.Proofs.Progress

/-!
# Plain calls

A reader that is called again and again gives the answers to the events of its
lexer, up to the event at the end of the text, and then the end token for ever.
An event whose line cannot be written is answered by a stop; what it takes from
the text, and where the reader goes on, is as if it could.

    a reader is where its lexer is                                      (Settled.calls)
    up to the end, calls answer events                                  (Settled.answer_eq_event)
    behind it, they give the end token                                  (Settled.calls_behind)
    so the answers are those of all events, and end tokens              (calls_events)
-/

namespace LoxLexer

/-- The answer to an event, if its line can be written. -/
def Event.answer (e : Event) : Answer := Reader.logged (Answer.ofEvent e)

theorem Event.answer_of_line {e : Event} {n : Int} (h : e.line? = some n) :
    e.answer = if Number.isWritable n then Answer.ofEvent e else .error .lineTooLong := by
  cases e with
  | token t =>
    cases h
    rfl
  | error d =>
    have hline : d.line = some n := h
    simp only [answer, Answer.ofEvent, Reader.logged, hline, Option.all_some]

/-- Only an end token is answered by one. -/
theorem Event.isEnd_of_answer {e : Event} (h : e.answer.isEnd = true) : e.isEnd = true := by
  cases hanswer : e.answer with
  | error stop =>
    rw [hanswer] at h
    cases h
  | ok t =>
    rw [hanswer] at h
    rw [← Answer.isEnd_ofEvent, (Reader.logged_eq_ok_iff.mp hanswer).1]
    exact h

namespace Reader

/-- The answers to `n` calls, and the reader behind them. -/
def calls (s : Reader) (n : Nat) : List Answer × Reader := s.run (List.replicate n .next)

/-- The answer to call number `n`, counted from zero. -/
def answer (s : Reader) (n : Nat) : Answer := (s.calls n).2.call.1

/-- The place in the text behind `n` calls. -/
def place (s : Reader) (n : Nat) : Nat := (s.calls n).2.buffer.position

/-- What call number `n`, counted from zero, takes from the text. -/
def piece (s : Reader) (text : Text) (n : Nat) : Text :=
  (text.take (s.place (n + 1))).drop (s.place n)

theorem calls_zero (s : Reader) : s.calls 0 = ([], s) := rfl

theorem calls_succ (s : Reader) (n : Nat) :
    s.calls (n + 1) = (s.call.1 :: (s.call.2.calls n).1, (s.call.2.calls n).2) := rfl

theorem calls_of_done {s : Reader} {t : Token} (h : s.mode = .done t) (n : Nat) :
    s.calls n = (List.replicate n (.ok t), s) := by
  induction n with
  | zero => rfl
  | succ n ih => rw [calls_succ, call_of_done h, ih, List.replicate_succ]

theorem calls_add (s : Reader) (n m : Nat) :
    s.calls (n + m) = ((s.calls n).1 ++ ((s.calls n).2.calls m).1, ((s.calls n).2.calls m).2) := by
  induction n generalizing s with
  | zero => simp [calls_zero]
  | succ n ih => rw [Nat.succ_add, calls_succ, ih, calls_succ, List.cons_append]

/-- One more call at the end. -/
theorem calls_concat (s : Reader) (n : Nat) :
    s.calls (n + 1) = ((s.calls n).1 ++ [s.answer n], (s.calls n).2.call.2) := s.calls_add n 1

theorem calls_eq_map (s : Reader) (n : Nat) : (s.calls n).1 = (List.range n).map s.answer := by
  induction n with
  | zero => rfl
  | succ n ih => rw [calls_concat, ih, List.range_succ, List.map_append, List.map_singleton]

section
variable {s : Reader} (h : s.Settled)

include h

/-- Behind calls that came to an end token, that token is kept. -/
theorem Settled.mode_calls_of_end {t : Token} (hkind : t.kind = .endOfInput) {n : Nat}
    (ht : .ok t ∈ (s.calls n).1) : (s.calls n).2.mode = .done t := by
  induction n generalizing s with
  | zero => simp [calls_zero] at ht
  | succ n ih =>
    rw [calls_succ] at ht ⊢
    rcases List.mem_cons.mp ht with ht | ht
    · have hdone := h.mode_of_call_end ht.symm hkind
      rw [calls_of_done hdone]
      exact hdone
    · exact ih h.call ht

/-- The end token comes again for ever. -/
theorem Settled.calls_of_end {t : Token} (hkind : t.kind = .endOfInput) {n : Nat}
    (ht : .ok t ∈ (s.calls n).1) (m : Nat) :
    (s.calls (n + m)).1 = (s.calls n).1 ++ List.replicate m (.ok t) := by
  rw [calls_add, calls_of_done (h.mode_calls_of_end hkind ht)]

/-! ## Calls and events -/

/-- Calls of a reader are calls of its lexer. -/
theorem Settled.calls (n : Nat) :
    (s.calls n).2.Settled ∧ (s.calls n).2.lexer = s.lexer.after n := by
  induction n with
  | zero => exact ⟨h, rfl⟩
  | succ n ih =>
    obtain ⟨hsettled, hlexer⟩ := ih
    rw [calls_concat]
    refine ⟨hsettled.call, ?_⟩
    show (s.calls n).2.call.2.lexer = (s.lexer.after n).next.2
    rw [hsettled.lexer_call, hlexer]

theorem Settled.place_eq (n : Nat) : s.place n = s.lexer.place n :=
  congrArg (·.cursor.position) (h.calls n).2

/-- A reader is done behind the calls that find nothing but spaces. -/
theorem Settled.isDone_calls_succ (n : Nat) :
    (s.calls (n + 1)).2.mode.isDone = true ↔ (s.lexer.after n).front = [] := by
  obtain ⟨hsettled, hlexer⟩ := h.calls n
  rw [calls_concat, hsettled.mode_call, ← hlexer]
  by_cases hfront : (s.calls n).2.lexer.front = [] <;> simp [hfront, Mode.isDone]

theorem Settled.isDone_calls (hmode : s.mode.isDone = false) {n : Nat}
    (hfront : ∀ k < n, (s.lexer.after k).front ≠ []) : (s.calls n).2.mode.isDone = false := by
  cases n with
  | zero => exact hmode
  | succ n =>
    rw [Bool.eq_false_iff]
    exact mt (h.isDone_calls_succ n).mp (hfront n (Nat.lt_succ_self n))

/-- Up to the end of the text, every call answers the event of the lexer. -/
theorem Settled.answer_eq_event (hmode : s.mode.isDone = false) {n : Nat}
    (hfront : ∀ k < n, (s.lexer.after k).front ≠ []) : s.answer n = (s.lexer.event n).answer := by
  obtain ⟨hsettled, hlexer⟩ := h.calls n
  rw [answer, hsettled.answer_of_not_done (h.isDone_calls hmode hfront), hlexer]
  rfl

/-- Behind the call that comes to the end of the text, the reader stays there. -/
theorem Settled.calls_behind {n : Nat} (hn : (s.lexer.after n).front = []) (m : Nat) :
    (s.calls (n + 1 + m)).2 = (s.calls (n + 1)).2 ∧
      s.answer (n + 1 + m) = .ok (s.lexer.after n).finish.endToken := by
  obtain ⟨hsettled, hlexer⟩ := h.calls n
  have hmode : (s.calls (n + 1)).2.mode = .done (s.lexer.after n).finish.endToken := by
    rw [← hlexer] at hn ⊢
    rw [calls_concat, hsettled.mode_call, if_pos hn]
  have hcalls : (s.calls (n + 1 + m)).2 = (s.calls (n + 1)).2 := by
    rw [calls_add, calls_of_done hmode]
  refine ⟨hcalls, ?_⟩
  rw [answer, hcalls, call_of_done hmode]

end

end Reader

/-- **The answers to all calls.**  Up to the end of the text they are those to the events, and then
they are the end token on the last line. -/
theorem Reader.calls_events (source : Text) (first : Int) (logical : Bool) (text : Text) (m : Nat) :
    let events := (Lexer.start source first logical text).events.1
    ((start source first logical text).calls (events.length + m)).1 =
      events.map Event.answer ++
        List.replicate m (.ok ⟨.endOfInput, [], first + (text.count '\n' : Nat)⟩) := by
  intro events
  have hstart := settled_start source first logical text
  have hplaced := Lexer.placed_start source first logical text
  obtain ⟨n, -, hn, hmin⟩ := (Lexer.start source first logical text).exists_front_nil
  have hevents : events = (List.range (n + 1)).map (Lexer.start source first logical text).event :=
    Lexer.events_eq_map_event hn hmin
  rw [hevents, List.length_map, List.length_range, calls_eq_map, List.range_add, List.map_append,
    List.map_map, List.map_map]
  congr 1
  · refine List.map_congr_left fun k hk => ?_
    refine hstart.answer_eq_event rfl fun j hj => hmin j ?_
    have := List.mem_range.mp hk
    omega
  · rw [← (hplaced.after n).endToken_finish hn]
    refine List.eq_replicate_iff.mpr ⟨by rw [List.length_map, List.length_range], ?_⟩
    intro a ha
    obtain ⟨k, -, rfl⟩ := List.mem_map.mp ha
    exact (hstart.calls_behind hn k).2

end LoxLexer
