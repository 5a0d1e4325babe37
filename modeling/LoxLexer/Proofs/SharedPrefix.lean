import LoxLexer.Proofs.Lookahead
import LoxLexer.Proofs.ReaderHistory

/-!
# Texts that begin alike

Two lexers of texts that have a beginning in common go on alike until fewer than
two characters of it are left.  An event depends on what it takes and on two
characters behind that, and an event that looks at the end of its text has no
characters behind it.  Only the source line of an error shows more of the text.

    behind what was taken, both have two characters in common             (Alike.exists_ahead)
    one call yields the same and keeps two lexers alike                   (Alike.next)
    so does every history that ends two characters in front               (Alike.run)
    the same of readers, from their start on                              (answers_of_shared_prefix)
-/

namespace LoxLexer

/-- Two characters of what follows are all that can be seen of it. -/
theorem outlook_append {v : Text} (h : 2 ≤ v.length) (t : Text) :
    outlook (v ++ t) = outlook v := by
  rcases v with - | ⟨a, v⟩
  · cases h
  rcases v with - | ⟨b, v⟩
  · simp at h
  · rfl

/-! ## All but the source line -/

/-- All of a diagnostic but the line of text that it shows. -/
def Diagnostic.withoutSourceLine (d : Diagnostic) : Diagnostic := { d with sourceLine := none }

def Event.withoutSourceLine : Event → Event
  | .token t => .token t
  | .error d => .error d.withoutSourceLine

def Answer.withoutSourceLine : Answer → Answer
  | .error (.diagnostic d) => .error (.diagnostic d.withoutSourceLine)
  | a => a

theorem Answer.withoutSourceLine_ofEvent (e : Event) :
    (Answer.ofEvent e).withoutSourceLine = Answer.ofEvent e.withoutSourceLine := by
  cases e <;> rfl

/-! ## Lexers -/

namespace Lexer

/-- The lexers have come to the same place, in texts that both begin with `shared`. -/
structure Alike (shared : Text) (l m : Lexer) : Prop where
  shared_prefix_left : shared <+: l.cursor.text
  shared_prefix_right : shared <+: m.cursor.text
  seen_eq : m.cursor.seen = l.cursor.seen
  source_eq : m.source = l.source
  line_eq : m.line = l.line
  logical_eq : m.logical = l.logical
  finished_eq : m.finished = l.finished

theorem alike_start {shared text text' : Text} (h : shared <+: text) (h' : shared <+: text')
    (source : Text) (first : Int) (logical : Bool) :
    (start source first logical text).Alike shared (start source first logical text') :=
  ⟨h, h', rfl, rfl, rfl, rfl, rfl⟩

/-- A history does not go back. -/
theorem position_le_run (l : Lexer) (history : List Action) :
    l.cursor.position ≤ (l.run history).2.cursor.position := by
  induction history generalizing l with
  | nil => exact Nat.le_refl _
  | cons a as ih =>
    have hrest := ih (l.act a).2
    cases a with
    | setLogical logical => exact hrest
    | next =>
      have hnext : (l.act .next).2.cursor.position =
          l.cursor.position + l.spaces.length + l.taken.length := l.position_next
      have hrun : (l.run (.next :: as)).2 = ((l.act .next).2.run as).2 := rfl
      rw [hrun]
      omega

section
variable {shared : Text} {l m : Lexer}

theorem Alike.position_eq (h : l.Alike shared m) : m.cursor.position = l.cursor.position :=
  congrArg List.length h.seen_eq

/-- What ends two characters in front of the end of `shared` is in both texts, and these two
characters are behind it. -/
theorem Alike.exists_ahead (h : l.Alike shared m) {u s : Text} (hr : l.cursor.rest = u ++ s)
    (htwo : l.cursor.position + u.length + 2 ≤ shared.length) :
    ∃ v t t', 2 ≤ v.length ∧ s = v ++ t ∧ m.cursor.rest = u ++ (v ++ t') := by
  have htext : l.cursor.text = l.cursor.seen.reverse ++ u ++ s := by
    rw [Cursor.text, hr, List.append_assoc]
  have hlength : (l.cursor.seen.reverse ++ u).length = l.cursor.position + u.length := by
    simp [Cursor.position]
  have hpassed : l.cursor.seen.reverse ++ u <+: shared := by
    apply List.prefix_of_prefix_length_le ⟨s, htext.symm⟩ h.shared_prefix_left
    omega
  obtain ⟨v, rfl⟩ := hpassed
  obtain ⟨t, ht⟩ := h.shared_prefix_left
  obtain ⟨t', ht'⟩ := h.shared_prefix_right
  refine ⟨v, t, t', ?_, ?_, ?_⟩
  · rw [List.length_append, hlength] at htwo
    omega
  · rw [htext, List.append_assoc] at ht
    exact (List.append_cancel_left ht).symm
  · rw [Cursor.text, h.seen_eq, List.append_assoc, List.append_assoc] at ht'
    exact (List.append_cancel_left ht').symm

theorem Alike.advance (h : l.Alike shared m) {u s s' : Text} (hl : l.cursor.rest = u ++ s)
    (hm : m.cursor.rest = u ++ s') : (l.advance u s).Alike shared (m.advance u s') where
  shared_prefix_left := (Cursor.text_advance hl).symm ▸ h.shared_prefix_left
  shared_prefix_right := (Cursor.text_advance hm).symm ▸ h.shared_prefix_right
  seen_eq := congrArg (u.reverse ++ ·) h.seen_eq
  source_eq := h.source_eq
  line_eq := congrArg (· + (u.count '\n' : Int)) h.line_eq
  logical_eq := h.logical_eq
  finished_eq := h.finished_eq

theorem Alike.errorHere (h : l.Alike shared m) (cause : Cause) :
    (m.errorHere cause).withoutSourceLine = (l.errorHere cause).withoutSourceLine := by
  simp only [Lexer.errorHere, Event.withoutSourceLine, Diagnostic.withoutSourceLine, h.source_eq,
    h.line_eq]

/-- What was read alike is reported alike. -/
theorem Alike.eventOf (h : l.Alike shared m) {x : Lexed} {s' : Text}
    (hl : l.cursor.rest = x.taken ++ x.rest) (hm : m.cursor.rest = x.taken ++ s') :
    (m.eventOf { x with rest := s' }).withoutSourceLine = (l.eventOf x).withoutSourceLine := by
  obtain ⟨item, w, s⟩ := x
  cases item with
  | token kind lexeme =>
    show Event.token ⟨kind, lexeme, m.line⟩ = .token ⟨kind, lexeme, l.line⟩
    rw [h.line_eq]
  | fault cause =>
    rw [eventOf_fault, eventOf_fault]
    split
    · exact (h.advance hl hm).errorHere cause
    · exact h.errorHere cause

/-- **One call goes alike** if it ends two characters in front of where the texts may part. -/
theorem Alike.next (h : l.Alike shared m)
    (htwo : l.next.2.cursor.position + 2 ≤ shared.length) :
    m.next.1.withoutSourceLine = l.next.1.withoutSourceLine ∧
      l.next.2.Alike shared m.next.2 := by
  have hrest : l.cursor.rest = l.spaces ++ l.taken ++ l.next.2.cursor.rest := by
    rw [List.append_assoc]
    exact l.rest_eq_next
  have htaken : l.cursor.position + (l.spaces ++ l.taken).length + 2 ≤ shared.length := by
    rw [l.position_next] at htwo
    rw [List.length_append]
    omega
  obtain ⟨v, t, t', hv, ht, hm⟩ := h.exists_ahead hrest htaken
  -- something is behind the event, so it is not the end token
  have hfront : l.front ≠ [] := by
    intro hnil
    have hlength := congrArg List.length l.front_eq_next
    rw [hnil, ht] at hlength
    simp only [List.length_nil, List.length_append] at hlength
    omega
  obtain ⟨c, r, hcr⟩ := List.exists_cons_of_ne_nil hfront
  have hc := isSpace_of_front_cons hcr
  have hread := taken_of_front_cons hcr
  have hbehind : (Lexed.read l.logical c r).rest = v ++ t := by
    rw [← ht, (next_of_front_cons hcr).2.2]
    rfl
  obtain ⟨r', hr'⟩ : ∃ r', c :: r' = (Lexed.read l.logical c r).taken ++ (v ++ t') := by
    have hsplit := Lexed.taken_append_rest l.logical c r
    obtain ⟨d, w, hdw⟩ := List.exists_cons_of_ne_nil (Lexed.taken_ne_nil l.logical c r)
    rw [hdw] at hsplit ⊢
    obtain ⟨rfl, -⟩ := List.cons.inj hsplit
    exact ⟨w ++ (v ++ t'), rfl⟩
  have hsame : Lexed.read m.logical c r' = { Lexed.read l.logical c r with rest := v ++ t' } := by
    rw [h.logical_eq]
    refine Lexed.read_of_outlook ?_ hr'
    rw [hbehind, outlook_append hv, outlook_append hv]
  have hl' : l.cursor.rest = l.spaces ++ c :: r := by
    rw [← hcr]
    exact l.spaces_append_front.symm
  have hm' : m.cursor.rest = l.spaces ++ c :: r' := by
    rw [hm, hread, hr', List.append_assoc]
  obtain ⟨-, hevent, hnext⟩ := next_of_read hl' isSpace_of_mem_spaces hc rfl
  obtain ⟨-, hevent', hnext'⟩ := next_of_read hm' isSpace_of_mem_spaces hc hsame
  rw [hevent, hevent', hnext, hnext']
  constructor
  · exact (h.advance hl' hm').eventOf (Lexed.taken_append_rest l.logical c r).symm hr'
  · apply h.advance
    · rw [← hread, hbehind, ← ht]
      exact hrest
    · rw [← hread]
      exact hm

theorem Alike.act (h : l.Alike shared m) (a : Action)
    (htwo : (l.act a).2.cursor.position + 2 ≤ shared.length) :
    (m.act a).1.map Event.withoutSourceLine = (l.act a).1.map Event.withoutSourceLine ∧
      (l.act a).2.Alike shared (m.act a).2 := by
  cases a with
  | next =>
    obtain ⟨hevent, hnext⟩ := h.next htwo
    exact ⟨congrArg (fun e => [e]) hevent, hnext⟩
  | setLogical logical =>
    exact ⟨rfl, h.shared_prefix_left, h.shared_prefix_right, h.seen_eq, h.source_eq, h.line_eq,
      rfl, h.finished_eq⟩

theorem Alike.run (h : l.Alike shared m) {history : List Action}
    (htwo : (l.run history).2.cursor.position + 2 ≤ shared.length) :
    (m.run history).1.map Event.withoutSourceLine =
        (l.run history).1.map Event.withoutSourceLine ∧
      (l.run history).2.Alike shared (m.run history).2 := by
  induction history generalizing l m with
  | nil => exact ⟨rfl, h⟩
  | cons a as ih =>
    have hrun : (l.run (a :: as)).2 = ((l.act a).2.run as).2 := rfl
    have hle := (l.act a).2.position_le_run as
    rw [hrun] at htwo
    obtain ⟨hevents, hact⟩ := h.act a (by omega)
    obtain ⟨hlater, hlast⟩ := ih hact htwo
    refine ⟨?_, hlast⟩
    show ((m.act a).1 ++ ((m.act a).2.run as).1).map _ =
      ((l.act a).1 ++ ((l.act a).2.run as).1).map _
    rw [List.map_append, List.map_append, hevents, hlater]

end

end Lexer

/-! ## Readers -/

namespace Reader

/-- Whether the log takes an answer depends on its line number alone. -/
theorem withoutSourceLine_logged (a : Answer) :
    (logged a).withoutSourceLine = logged a.withoutSourceLine := by
  cases a with
  | ok t =>
    show (logged (.ok t)).withoutSourceLine = logged (.ok t)
    simp only [logged]
    split <;> rfl
  | error e =>
    cases e with
    | buffer e => rfl
    | lineTooLong => rfl
    | diagnostic d =>
      show (if d.line.all Number.isWritable then Except.error (Stop.diagnostic d)
          else Except.error Stop.lineTooLong : Answer).withoutSourceLine =
        if d.line.all Number.isWritable then Except.error (Stop.diagnostic d.withoutSourceLine)
          else Except.error Stop.lineTooLong
      split <;> rfl

section
variable {shared : Text} {s t : Reader}

theorem Settled.withoutSourceLine_call (hs : s.Settled) (ht : t.Settled)
    (hdone : t.mode.isDone = s.mode.isDone)
    (hevent : t.lexer.next.1.withoutSourceLine = s.lexer.next.1.withoutSourceLine) :
    t.call.1.withoutSourceLine = s.call.1.withoutSourceLine := by
  have hanswer : (Answer.ofEvent t.lexer.next.1).withoutSourceLine =
      (Answer.ofEvent s.lexer.next.1).withoutSourceLine := by
    rw [Answer.withoutSourceLine_ofEvent, hevent, Answer.withoutSourceLine_ofEvent]
  rw [hs.answer_call, ht.answer_call, hdone]
  split
  · exact hanswer
  · rw [withoutSourceLine_logged, hanswer, withoutSourceLine_logged]

/-- The answers go with the events of the lexers. -/
theorem withoutSourceLine_run (hs : s.Settled) (ht : t.Settled)
    (h : s.lexer.Alike shared t.lexer) {history : List Lexer.Action}
    (htwo : (s.lexer.run history).2.cursor.position + 2 ≤ shared.length) :
    (t.run history).1.map Answer.withoutSourceLine =
      (s.run history).1.map Answer.withoutSourceLine := by
  induction history generalizing s t with
  | nil => rfl
  | cons a as ih =>
    have hrun : (s.lexer.run (a :: as)).2 = ((s.lexer.act a).2.run as).2 := rfl
    have hle := (s.lexer.act a).2.position_le_run as
    rw [hrun] at htwo
    obtain ⟨hs', hslexer⟩ := hs.act a
    obtain ⟨ht', htlexer⟩ := ht.act a
    obtain ⟨-, hact⟩ := h.act a (by omega)
    rw [← hslexer, ← htlexer] at hact
    rw [← hslexer] at htwo
    have hlater := ih hs' ht' hact htwo
    have hanswers : (t.act a).1.map Answer.withoutSourceLine =
        (s.act a).1.map Answer.withoutSourceLine := by
      cases a with
      | setLogical logical => rfl
      | next =>
        have hnext : s.lexer.next.2.cursor.position + 2 ≤ shared.length := by
          have hact : (s.lexer.act .next).2 = s.lexer.next.2 := rfl
          rw [hslexer] at htwo
          rw [hact] at hle htwo
          omega
        have hcall := hs.withoutSourceLine_call ht h.finished_eq (h.next hnext).1
        exact congrArg (fun answer => [answer]) hcall
    show ((t.act a).1 ++ ((t.act a).2.run as).1).map _ =
      ((s.act a).1 ++ ((s.act a).2.run as).1).map _
    rw [List.map_append, List.map_append, hanswers, hlater]

/-- A reader in front of some text is between tokens. -/
theorem Settled.mode_of_rest_ne_nil (h : s.Settled) (hrest : s.buffer.cursor.rest ≠ []) :
    s.mode = .betweenTokens := by
  rcases h with hmode | ⟨-, hnil⟩
  · exact hmode
  · exact absurd hnil hrest

end

/-- **Two characters of lookahead suffice.**  If two texts have a beginning in common, and a
history on the first one ends at least two characters in front of the end of that beginning, then
the history yields the same answers on the second one, and leaves it at the same place, on the same
line and in the same mode.  Only the source lines of errors may differ.  The same holds of the
lexer's events. -/
theorem answers_of_shared_prefix (source : Text) (first : Int) (logical : Bool)
    {shared text text' : Text} (h : shared <+: text) (h' : shared <+: text')
    (history : List Lexer.Action) :
    let run := (start source first logical text).run history
    let run' := (start source first logical text').run history
    let events := ((Lexer.start source first logical text).run history).1
    let events' := ((Lexer.start source first logical text').run history).1
    run.2.buffer.position + 2 ≤ shared.length →
      run'.1.map Answer.withoutSourceLine = run.1.map Answer.withoutSourceLine ∧
        run'.2.buffer.position = run.2.buffer.position ∧ run'.2.line = run.2.line ∧
        run'.2.mode = run.2.mode ∧
        events'.map Event.withoutSourceLine = events.map Event.withoutSourceLine := by
  intro run run' events events' htwo
  have hs := settled_start source first logical text
  have ht := settled_start source first logical text'
  have hstart : (start source first logical text).lexer.Alike shared
      (start source first logical text').lexer := Lexer.alike_start h h' source first logical
  obtain ⟨hs', hslexer⟩ := hs.run history
  obtain ⟨ht', htlexer⟩ := ht.run history
  have hend : ((start source first logical text).lexer.run history).2.cursor.position + 2 ≤
      shared.length := by
    rw [← hslexer]
    exact htwo
  obtain ⟨hevents, hlast⟩ := hstart.run hend
  have hanswers := withoutSourceLine_run hs ht hstart hend
  rw [← hslexer, ← htlexer] at hlast
  have hrest : run.2.buffer.cursor.rest ≠ [] ∧ run'.2.buffer.cursor.rest ≠ [] := by
    obtain ⟨v, t, t', hv, hleft, hright⟩ := hlast.exists_ahead (List.nil_append _).symm htwo
    rw [List.nil_append] at hright
    have hne : v ≠ [] := List.ne_nil_of_length_pos (by omega)
    constructor
    · intro hnil
      exact hne (List.append_eq_nil_iff.mp (hleft.symm.trans hnil)).1
    · intro hnil
      exact hne (List.append_eq_nil_iff.mp (hright.symm.trans hnil)).1
  refine ⟨hanswers, hlast.position_eq, hlast.line_eq, ?_, hevents⟩
  rw [hs'.mode_of_rest_ne_nil hrest.1, ht'.mode_of_rest_ne_nil hrest.2]

/-- An integer in front of a point, and an operator that is not doubled: the source line of the
error shows where the texts part. -/
theorem answers_of_shared_prefix_operator :
    let shared := "1. &xy".toList
    let text := "1. &xy\"".toList
    let text' := "1. &xyz;\n".toList
    let history := List.replicate 3 Lexer.Action.next
    let run := (start "a.lox".toList 7 true text).run history
    let run' := (start "a.lox".toList 7 true text').run history
    shared <+: text ∧ shared <+: text' ∧ run.2.buffer.position + 2 ≤ shared.length ∧
      run'.1.map Answer.withoutSourceLine = run.1.map Answer.withoutSourceLine ∧
      run'.2.buffer.position = run.2.buffer.position ∧ run'.1 ≠ run.1 := by
  intro shared text text' history run run'
  have h : shared <+: text := ⟨"\"".toList, rfl⟩
  have h' : shared <+: text' := ⟨"z;\n".toList, rfl⟩
  have htwo : run.2.buffer.position + 2 ≤ shared.length := by decide +kernel
  obtain ⟨hanswers, hposition, -⟩ :=
    answers_of_shared_prefix "a.lox".toList 7 true h h' history htwo
  exact ⟨h, h', htwo, hanswers, hposition, by decide +kernel⟩

end Reader

end LoxLexer
