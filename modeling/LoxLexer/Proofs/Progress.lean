import LoxLexer.Proofs.ReaderHistory

/-!
# Progress

Every call of a reader comes to a token or to one of four errors, never to a
complaint of its buffer, and takes something from the text until nothing but
spaces is left.  Then it comes to the end token, and stays there.

    a text of n characters has its end token among the first n + 1 events  (exists_end_of_run)
    a reader that is done gives the same end token for ever                (run_of_done)
    all of this behind any history                                         (call_progress)
-/

namespace LoxLexer

/-- The causes that a source text can have. -/
def Cause.isLexical : Cause → Bool
  | .unterminatedString => true
  | .unterminatedComment => true
  | .invalidToken _ => true
  | .unpairedOperator _ _ => true
  | .unreadable _ => false
  | .other _ _ => false

/-- A token, or an error with one of these causes. -/
def Answer.isLexical : Answer → Bool
  | .ok _ => true
  | .error (.diagnostic d) => d.cause.isLexical
  | .error _ => false

def Answer.isEnd : Answer → Bool
  | .ok t => t.kind = .endOfInput
  | .error _ => false

theorem Answer.isEnd_ofEvent (e : Event) : (Answer.ofEvent e).isEnd = e.isEnd := by
  cases e <;> rfl

theorem Refusal.isLexical {logical : Bool} {cause : Cause} {w s : Text}
    (h : Refusal logical cause w s) : cause.isLexical = true := by
  cases h <;> rfl

namespace Lexer

theorem isLexical_next (l : Lexer) : (Answer.ofEvent l.next.1).isLexical = true := by
  rcases l.next_cases with ⟨-, hn⟩ | ⟨-, ⟨k, x, he, -⟩ | ⟨cause, he, hr⟩⟩
  · rw [hn]
    rfl
  · rw [he]
    rfl
  · rw [he]
    exact hr.isLexical

theorem position_next_lt {l : Lexer} (h : l.front ≠ []) :
    l.cursor.position < l.next.2.cursor.position := by
  have hlt := length_next_lt h
  have hbefore := l.cursor.position_add_remaining
  have hbehind := l.next.2.cursor.position_add_remaining
  rw [l.text_next] at hbehind
  simp only [Cursor.remaining] at hbefore hbehind
  omega

/-- Calls that do not come to the end shorten the rest, so they do come to it. -/
theorem exists_end_of_run (l : Lexer) (history : List Action)
    (h : l.cursor.rest.length < (l.run history).1.length) :
    ∃ e ∈ (l.run history).1.take (l.cursor.rest.length + 1), e.isEnd = true := by
  induction history generalizing l with
  | nil => exact absurd h (Nat.not_lt_zero _)
  | cons a as ih =>
    cases a with
    | setLogical logical => exact ih { l with logical } h
    | next =>
      have hrun : (l.run (.next :: as)).1 = l.next.1 :: (l.next.2.run as).1 := rfl
      rw [hrun, List.length_cons] at h
      rw [hrun, List.take_succ_cons]
      by_cases hend : l.next.1.isEnd = true
      · exact ⟨_, List.mem_cons_self, hend⟩
      · have hfront : l.front ≠ [] := fun hf => hend (l.isEnd_next_iff.mpr hf)
        have hlt := length_next_lt hfront
        obtain ⟨e, he, hend⟩ := ih l.next.2 (by omega)
        refine ⟨e, List.mem_cons_of_mem _ ?_, hend⟩
        exact List.take_subset_take_left _ (by omega) he

end Lexer

namespace Reader

/-- **The end is kept.** -/
theorem run_of_done {s : Reader} {t : Token} (h : s.mode = .done t) (later : List Lexer.Action) :
    (∀ a ∈ (s.run later).1, a = .ok t) ∧ (s.run later).2.mode = .done t ∧
      (s.run later).2.buffer = s.buffer ∧ (s.run later).2.line = s.line := by
  induction later generalizing s with
  | nil => exact ⟨by simp [run], h, rfl, rfl⟩
  | cons a as ih =>
    cases a with
    | setLogical logical => exact ih (s := s.setLogical logical) h
    | next =>
      have hrun : s.run (.next :: as) = (.ok t :: (s.run as).1, (s.run as).2) := by
        show (s.call.1 :: (s.call.2.run as).1, (s.call.2.run as).2) = _
        rw [call_of_done h]
      obtain ⟨hanswers, hbehind⟩ := ih h
      rw [hrun]
      exact ⟨List.forall_mem_cons.mpr ⟨rfl, hanswers⟩, hbehind⟩

theorem logged_of_writable {t : Token} (h : Number.isWritable t.line = true) :
    logged (.ok t) = .ok t := by
  simp [logged, h]

theorem logged_of_not_writable {t : Token} (h : Number.isWritable t.line = false) :
    logged (.ok t) = .error .lineTooLong := by
  simp [logged, h]

theorem logged_eq_ok_iff {a : Answer} {t : Token} :
    logged a = .ok t ↔ a = .ok t ∧ Number.isWritable t.line = true := by
  constructor
  · intro h
    cases a with
    | ok u =>
      cases hu : Number.isWritable u.line with
      | true =>
        rw [logged_of_writable hu] at h
        cases h
        exact ⟨rfl, hu⟩
      | false =>
        rw [logged_of_not_writable hu] at h
        cases h
    | error e =>
      unfold logged at h
      split at h
      · next hok => cases hok
      · split at h <;> cases h
      · cases h
  · rintro ⟨rfl, ht⟩
    exact logged_of_writable ht

/-- A call that gives a token comes to that event. -/
theorem Settled.next_of_call_ok {s : Reader} (h : s.Settled) {t : Token} (ht : s.call.1 = .ok t) :
    s.lexer.next.1 = .token t := by
  have hevent : Answer.ofEvent s.lexer.next.1 = .ok t := by
    rw [h.answer_call] at ht
    split at ht
    · exact ht
    · exact (logged_eq_ok_iff.mp ht).1
  cases he : s.lexer.next.1 with
  | token u =>
    rw [he] at hevent
    exact congrArg Event.token (Except.ok.inj hevent)
  | error d =>
    rw [he] at hevent
    cases hevent

/-- A call that hands out an end token keeps it, whatever the lines are. -/
theorem Settled.mode_of_call_end {s : Reader} (h : s.Settled) {t : Token} (ht : s.call.1 = .ok t)
    (hkind : t.kind = .endOfInput) : s.call.2.mode = .done t := by
  have hevent := h.next_of_call_ok ht
  have hfront : s.lexer.front = [] := by
    rw [← s.lexer.isEnd_next_iff, hevent]
    simp [Event.isEnd, hkind]
  rw [(Lexer.next_of_front_nil hfront).2] at hevent
  cases hevent
  rw [h.mode_call, if_pos hfront]

section
variable {s : Reader} {first : Int} {text : Text} (h : s.Settled)
  (hplaced : s.lexer.Placed first text)
  (hwritable : ∀ n ≤ text.count '\n', Number.isWritable (first + n) = true)

include h hplaced hwritable

/-- A call comes to the end when nothing but spaces is left. -/
theorem Settled.isEnd_call_iff : s.call.1.isEnd = true ↔ s.lexer.front = [] := by
  rw [h.answer_eq hplaced hwritable, Answer.isEnd_ofEvent, Lexer.isEnd_next_iff]

theorem Settled.position_call_lt (hend : s.call.1.isEnd = false) :
    s.buffer.position < s.call.2.buffer.position := by
  have hfront : s.lexer.front ≠ [] := fun hf => by
    rw [(h.isEnd_call_iff hplaced hwritable).mpr hf] at hend
    cases hend
  have hlt := Lexer.position_next_lt hfront
  rw [← h.lexer_call] at hlt
  exact hlt

/-- The end token that a call comes to is the one that is kept. -/
theorem Settled.mode_call_of_end {t : Token} (ht : s.call.1 = .ok t)
    (hkind : t.kind = .endOfInput) : s.call.2.mode = .done t := by
  have hend : s.call.1.isEnd = true := by simp [ht, Answer.isEnd, hkind]
  have hfront := (h.isEnd_call_iff hplaced hwritable).mp hend
  rw [h.answer_eq hplaced hwritable, (Lexer.next_of_front_nil hfront).2] at ht
  cases ht
  rw [h.mode_call, if_pos hfront]

end

/-- **Progress.**  Behind any history, where every line can be written: a call comes to a token or
to one of the four errors that a text can have, and is between tokens or done behind it; it moves
on unless it comes to the end, which is when nothing but spaces is left; the end token is among the
first calls, at most one more than there are characters; and behind it nothing changes any more. -/
theorem call_progress (source : Text) (first : Int) (logical : Bool) (text : Text)
    (hwritable : ∀ n ≤ text.count '\n', Number.isWritable (first + n) = true)
    (history : List Lexer.Action) :
    let before := (start source first logical text).run history
    let s := before.2
    let lexed := (Lexer.start source first logical text).run history
    (before.1 = lexed.1.map Answer.ofEvent ∧ s.lexer = lexed.2) ∧
      s.call.1.isLexical = true ∧
      (s.call.2.mode = .betweenTokens ∨ ∃ t, s.call.2.mode = .done t) ∧
      (s.call.1.isEnd = false → s.buffer.position < s.call.2.buffer.position) ∧
      (s.call.1.isEnd = true ↔ ∀ c ∈ text.drop s.buffer.position, isSpace c = true) ∧
      (text.length < before.1.length →
        ∃ a ∈ before.1.take (text.length + 1), a.isEnd = true) ∧
      ∀ t, s.call.1 = .ok t → t.kind = .endOfInput → ∀ later,
        let after := s.call.2.run later
        (∀ a ∈ after.1, a = .ok t) ∧ after.2.mode = .done t ∧
          after.2.buffer = s.call.2.buffer ∧ after.2.line = s.call.2.line := by
  intro before s lexed
  have hstart := settled_start source first logical text
  have hfirst : (start source first logical text).lexer.Placed first text :=
    Lexer.placed_start source first logical text
  obtain ⟨hsettled, hlexer⟩ : s.Settled ∧ s.lexer = lexed.2 := hstart.run history
  have hanswers : before.1 = lexed.1.map Answer.ofEvent :=
    hstart.answers_run hfirst hwritable history
  have hplaced : s.lexer.Placed first text := placed_run source first logical text history
  have hdrop : text.drop s.buffer.position = s.buffer.cursor.rest := hplaced.drop_position
  refine ⟨⟨hanswers, hlexer⟩, ?_, ?_, hsettled.position_call_lt hplaced hwritable, ?_, ?_, ?_⟩
  · rw [hsettled.answer_eq hplaced hwritable]
    exact s.lexer.isLexical_next
  · rw [hsettled.mode_call]
    split
    · exact Or.inr ⟨_, rfl⟩
    · exact Or.inl rfl
  · rw [hdrop]
    exact (hsettled.isEnd_call_iff hplaced hwritable).trans Lexer.front_eq_nil_iff
  · intro hlt
    rw [hanswers, List.length_map] at hlt
    obtain ⟨e, he, hend⟩ := (Lexer.start source first logical text).exists_end_of_run history hlt
    refine ⟨Answer.ofEvent e, ?_, by rw [Answer.isEnd_ofEvent, hend]⟩
    rw [hanswers, ← List.map_take]
    exact List.mem_map_of_mem he
  · intro t ht hkind later
    exact run_of_done (hsettled.mode_call_of_end hplaced hwritable ht hkind) later

/-- An operator that is not doubled, and behind it a string that runs out. -/
theorem call_progress_unclosed :
    let text := "&\n\"a".toList
    let s := ((start "a.lox".toList 7 true text).run [.next]).2
    (∀ n ≤ text.count '\n', Number.isWritable (7 + n) = true) ∧
      s.call.1.isLexical = true ∧ s.call.1.isEnd = false ∧
      s.buffer.position < s.call.2.buffer.position := by
  intro text s
  have hwritable : ∀ n ≤ text.count '\n', Number.isWritable (7 + n) = true := by decide +kernel
  obtain ⟨-, hlexical, -, hposition, -⟩ :=
    call_progress "a.lox".toList 7 true text hwritable [.next]
  have hend : s.call.1.isEnd = false := by decide +kernel
  exact ⟨hwritable, hlexical, hend, hposition hend⟩

end Reader

end LoxLexer
