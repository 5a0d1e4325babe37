import Mathlib.Data.List.Forall2
import LoxLexer.Proofs.ReaderHistory
import LoxLexer.Proofs.Relocation

/-!
# Resuming is restarting

A reader that is not at the end goes on as a new one does that is given what is
left of the text and the number of the line.  The new one yields the same
tokens and the same errors; of the source lines it can only know what is left of
the line in which it starts.

    one call keeps the two alike                                          (Restarted.call)
    every history yields the same answers, and so does the run to the end (resumed_eq_restarted)
-/

namespace LoxLexer

/-- The diagnostic `d` of a run that was started anew on line `n`, and the one in its place in the
run that went on. -/
structure Diagnostic.Resumes (n : Int) (d e : Diagnostic) : Prop where
  /-- The message and the hint are functions of the cause. -/
  cause_eq : d.cause = e.cause
  location_eq : d.location = e.location
  sourceLine : ∃ u v, d.sourceLine = some u ∧ e.sourceLine = some v ∧ u <:+ v ∧
    ∀ m, d.line = some m → n < m → u = v

inductive Event.Resumes (n : Int) : Event → Event → Prop
  | token (t : Token) : Resumes n (.token t) (.token t)
  | error {d e : Diagnostic} (h : d.Resumes n e) : Resumes n (.error d) (.error e)

/-- No answer is a complaint of the buffer. -/
inductive Answer.Resumes (n : Int) : Answer → Answer → Prop
  | token (t : Token) : Resumes n (.ok t) (.ok t)
  | diagnostic {d e : Diagnostic} (h : d.Resumes n e) :
      Resumes n (.error (.diagnostic d)) (.error (.diagnostic e))
  | lineTooLong : Resumes n (.error .lineTooLong) (.error .lineTooLong)

/-! ## Lexers -/

namespace Lexer

/-- The lexer `l` has read a text that was left, and whose first line had the number `n`, as far
as `m` has; `m` has `before` behind that, last character first. -/
structure Restarted (n : Int) (before text : Text) (l m : Lexer) : Prop where
  embedded : l.Embedded before 0 m
  placed : l.Placed n text

section
variable {n : Int} {before text : Text} {l m : Lexer}

theorem Restarted.line_eq (h : l.Restarted n before text m) : m.line = l.line := by
  have := h.embedded.line_eq
  omega

/-- Behind line `n`, the line feed in front of the source line has been read anew. -/
theorem Restarted.errorHere (h : l.Restarted n before text m) (cause : Cause) :
    (l.errorHere cause).Resumes n (m.errorHere cause) := by
  refine .error ⟨rfl, ?_, _, _, rfl, rfl, h.embedded.lineText_suffix, ?_⟩
  · rw [h.line_eq, h.embedded.source_eq]
  · intro k hk hlt
    have hline : l.line = k := Option.some.inj hk
    have hfeed : '\n' ∈ l.cursor.seen := by
      have := h.placed.line_eq
      exact List.count_pos_iff.mp (by omega)
    exact (h.embedded.lineText_eq (Or.inl hfeed)).symm

/-- One call yields the same, and leaves the two alike. -/
theorem Restarted.next (h : l.Restarted n before text m) :
    l.next.1.Resumes n m.next.1 ∧ l.next.2.Restarted n before text m.next.2 := by
  obtain ⟨hnext, ⟨t, ht, ht'⟩ | ⟨p, q, cause, hp, hpq, hd, hd'⟩⟩ := h.embedded.next
  · have hshift : t.shift 0 = t := by simp [Token.shift]
    rw [ht, ht', hshift]
    exact ⟨.token t, hnext, h.placed.next⟩
  · have hplaced : p.Placed n text := by
      rcases hp with rfl | rfl
      · exact h.placed.skipSpace
      · exact h.placed.next
    rw [hd, hd']
    exact ⟨Restarted.errorHere ⟨hpq, hplaced⟩ cause, hnext, h.placed.next⟩

/-- The runs to the end yield the same. -/
theorem Restarted.events (h : l.Restarted n before text m) :
    List.Forall₂ (Event.Resumes n) l.events.1 m.events.1 := by
  induction l using induction_on_next generalizing m with
  | h l ih =>
    obtain ⟨hevent, hnext⟩ := h.next
    have hfront := h.embedded.front_eq
    by_cases hf : l.front = []
    · have hf' : m.front = [] := hfront.trans hf
      obtain ⟨hstep, hl⟩ := next_of_front_nil hf
      obtain ⟨hstep', hm⟩ := next_of_front_nil hf'
      rw [hl, hm] at hevent
      rw [events_of_none hstep, events_of_none hstep']
      exact .cons hevent .nil
    · have hf' : m.front ≠ [] := hfront ▸ hf
      rw [events_of_some (step?_of_front_ne_nil hf), events_of_some (step?_of_front_ne_nil hf')]
      exact .cons hevent (ih hf hnext)

end

end Lexer

/-! ## Readers -/

namespace Reader

theorem resumes_ofEvent {n : Int} {e e' : Event} (h : e.Resumes n e') :
    Answer.Resumes n (Answer.ofEvent e) (Answer.ofEvent e') := by
  cases h with
  | token t => exact .token t
  | error h => exact .diagnostic h

/-- Answers that resume each other are on one line, so the log takes both or none. -/
theorem resumes_logged {n : Int} {a a' : Answer} (h : a.Resumes n a') :
    (logged a).Resumes n (logged a') := by
  cases h with
  | lineTooLong => exact .lineTooLong
  | token t =>
    simp only [logged]
    split
    · exact .token t
    · exact .lineTooLong
  | @diagnostic d e h =>
    have hline : e.line = d.line := congrArg (·.map (·.line)) h.location_eq.symm
    simp only [logged, hline]
    split
    · exact .diagnostic h
    · exact .lineTooLong

/-- The reader `f` was started anew where `s` went on. -/
structure Restarted (n : Int) (before text : Text) (f s : Reader) : Prop where
  lexer : f.lexer.Restarted n before text s.lexer
  settled : f.Settled
  settled' : s.Settled
  isDone_eq : f.mode.isDone = s.mode.isDone

section
variable {n : Int} {before text : Text} {f s : Reader}

/-- **One call keeps the two alike**, whatever it comes to. -/
theorem Restarted.call (h : f.Restarted n before text s) :
    f.call.1.Resumes n s.call.1 ∧ f.call.2.Restarted n before text s.call.2 := by
  obtain ⟨hevent, hnext⟩ := h.lexer.next
  refine ⟨?_, ?_, h.settled.call, h.settled'.call, ?_⟩
  · rw [h.settled.answer_call, h.settled'.answer_call, h.isDone_eq]
    split
    · exact resumes_ofEvent hevent
    · exact resumes_logged (resumes_ofEvent hevent)
  · rw [h.settled.lexer_call, h.settled'.lexer_call]
    exact hnext
  · rw [h.settled.mode_call, h.settled'.mode_call, h.lexer.embedded.front_eq]
    split <;> rfl

theorem Restarted.act (h : f.Restarted n before text s) (a : Lexer.Action) :
    List.Forall₂ (Answer.Resumes n) (f.act a).1 (s.act a).1 ∧
      (f.act a).2.Restarted n before text (s.act a).2 := by
  cases a with
  | next => exact ⟨.cons h.call.1 .nil, h.call.2⟩
  | setLogical logical =>
    have hl := h.lexer.embedded
    refine ⟨.nil, ⟨⟨hl.source_eq, hl.seen_eq, hl.rest_eq, hl.line_eq, rfl⟩, ?_⟩, h.settled,
      h.settled', h.isDone_eq⟩
    exact ⟨h.lexer.placed.text_eq, h.lexer.placed.line_eq⟩

theorem Restarted.run (h : f.Restarted n before text s) (later : List Lexer.Action) :
    List.Forall₂ (Answer.Resumes n) (f.run later).1 (s.run later).1 := by
  induction later generalizing f s with
  | nil => exact .nil
  | cons a as ih =>
    obtain ⟨hanswers, hact⟩ := h.act a
    exact List.rel_append hanswers (ih hact)

end

/-- **Resuming is restarting.**  Behind any history that has not come to the end, and in front of
anything but a byte order mark, all later answers are those of a new reader that is given what is
left of the text, the number of the line and the switch.  The same holds of the lexer's events up
to the end. -/
theorem resumed_eq_restarted (source : Text) (first : Int) (logical : Bool) (text : Text)
    (history : List Lexer.Action) :
    let s := ((start source first logical text).run history).2
    let l := ((Lexer.start source first logical text).run history).2
    let left := text.drop s.buffer.position
    s.mode.isDone = false → left.head? ≠ some Input.byteOrderMark →
      let fresh := start source s.line s.logical (Input.dropMark left)
      (∀ later, List.Forall₂ (Answer.Resumes s.line) (fresh.run later).1 (s.run later).1) ∧
        l = s.lexer ∧
        List.Forall₂ (Event.Resumes s.line)
          (Lexer.start source s.line s.logical (Input.dropMark left)).events.1 l.events.1 := by
  intro s l left hmode hmark fresh
  obtain ⟨hsettled, hlexer⟩ := (settled_start source first logical text).run history
  have hl : l = s.lexer := hlexer.symm
  have hplaced : s.lexer.Placed first text := placed_run source first logical text history
  have hsource : s.lexer.source = source := source_run source first logical text history
  have hleft : s.lexer.cursor.rest = Input.dropMark left := by
    rw [Input.dropMark_of_head?_ne hmark]
    exact hplaced.drop_position.symm
  have hembedded : fresh.lexer.Embedded s.lexer.cursor.seen 0 s.lexer :=
    ⟨hsource, rfl, hleft, (Int.add_zero _).symm, rfl⟩
  have hfresh : fresh.lexer.Restarted s.line s.lexer.cursor.seen (Input.dropMark left) s.lexer :=
    ⟨hembedded, Lexer.placed_start _ _ _ _⟩
  have hreader : fresh.Restarted s.line s.lexer.cursor.seen (Input.dropMark left) s :=
    ⟨hfresh, settled_start _ _ _ _, hsettled, hmode.symm⟩
  refine ⟨fun later => hreader.run later, hl, ?_⟩
  rw [hl]
  exact hfresh.events

/-- Behind a character that starts no token, in the middle of a line. -/
theorem resumed_eq_restarted_character :
    let text := "x @ 1.2.3\n&\"q".toList
    let s := ((start "a.lox".toList 7 true text).run [.next, .next]).2
    let left := text.drop s.buffer.position
    let fresh := start "a.lox".toList s.line s.logical (Input.dropMark left)
    let later := List.replicate 4 Lexer.Action.next
    s.mode.isDone = false ∧ left.head? ≠ some Input.byteOrderMark ∧
      List.Forall₂ (Answer.Resumes s.line) (fresh.run later).1 (s.run later).1 := by
  intro text s left fresh later
  have hmode : s.mode.isDone = false := by decide +kernel
  have hmark : left.head? ≠ some Input.byteOrderMark := by decide +kernel
  obtain ⟨hanswers, -⟩ :=
    resumed_eq_restarted "a.lox".toList 7 true text [.next, .next] hmode hmark
  exact ⟨hmode, hmark, hanswers later⟩

end Reader

end LoxLexer
