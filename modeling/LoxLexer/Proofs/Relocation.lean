import LoxLexer.Proofs.Drained

/-!
# The same rest in another place

Two lexers in front of the same rest of text, one with more text behind it and
with greater line numbers.  They go on alike: the same tokens and causes, with
the lines moved, and with source lines that can only differ in what the one has
more behind it.

    l.Embedded before k m → the next events are of one kind                    (Embedded.next)
    behind a line feed the two runs differ in their line numbers only          (Embedded.drain)
-/

namespace LoxLexer

/-! ## Moved lines -/

/-- A token `k` lines on. -/
def Token.shift (k : Int) (t : Token) : Token := { t with line := t.line + k }

/-- A diagnostic `k` lines on. -/
def Diagnostic.shift (k : Int) (d : Diagnostic) : Diagnostic :=
  { d with location := d.location.map fun p => { p with line := p.line + k } }

namespace Lexer

/-- The lexer `m` stands where `l` stands, in a text that has `before` in front, last character
first, and whose lines have numbers greater by `k`. -/
structure Embedded (before : Text) (k : Int) (l m : Lexer) : Prop where
  source_eq : m.source = l.source
  seen_eq : m.cursor.seen = l.cursor.seen ++ before
  rest_eq : m.cursor.rest = l.cursor.rest
  line_eq : m.line = l.line + k
  logical_eq : m.logical = l.logical

section
variable {before : Text} {k : Int} {l m : Lexer}

/-! ## Source lines -/

theorem takeWhile_append_of_lineFeed {u v : Text} (h : '\n' ∈ u ∨ v.head? = some '\n') :
    (u ++ v).takeWhile (· != '\n') = u.takeWhile (· != '\n') := by
  by_cases hu : '\n' ∈ u
  · obtain ⟨x, y, rfl, hx⟩ := List.eq_append_cons_of_mem hu
    rw [List.append_assoc, List.cons_append, takeWhile_bne hx, takeWhile_bne hx]
  · obtain ⟨t, rfl⟩ := List.head?_eq_some_iff.mp (h.resolve_left hu)
    rw [takeWhile_bne hu, takeWhile_bne_self hu]

/-- The source line is the same where it begins behind what `m` has more. -/
theorem Embedded.lineText_eq (h : l.Embedded before k m)
    (hline : '\n' ∈ l.cursor.seen ∨ before.head? = some '\n') :
    m.cursor.lineText = l.cursor.lineText := by
  rw [Cursor.lineText, Cursor.lineText, h.seen_eq, h.rest_eq, takeWhile_append_of_lineFeed hline]

theorem Embedded.lineText_suffix (h : l.Embedded before k m) :
    l.cursor.lineText <:+ m.cursor.lineText := by
  by_cases hl : '\n' ∈ l.cursor.seen
  · exact ⟨[], (h.lineText_eq (Or.inl hl)).symm⟩
  · refine ⟨(before.takeWhile (· != '\n')).reverse, ?_⟩
    rw [Cursor.lineText, Cursor.lineText, h.seen_eq, h.rest_eq, takeWhile_bne_self hl,
      List.takeWhile_append_of_pos (bne_of_not_mem hl), List.reverse_append, List.append_assoc]

/-! ## One call -/

theorem Embedded.advance (h : l.Embedded before k m) (u s : Text) :
    (l.advance u s).Embedded before k (m.advance u s) where
  source_eq := h.source_eq
  seen_eq := by simp [Lexer.advance, Cursor.advance, h.seen_eq]
  rest_eq := rfl
  line_eq := by
    simp only [Lexer.advance, h.line_eq]
    omega
  logical_eq := h.logical_eq

theorem Embedded.skipSpace (h : l.Embedded before k m) :
    l.skipSpace.Embedded before k m.skipSpace := by
  rw [Lexer.skipSpace, Lexer.skipSpace, h.rest_eq]
  exact h.advance _ _

theorem Embedded.front_eq (h : l.Embedded before k m) : m.front = l.front := by
  rw [front, front, h.rest_eq]

/-- **Calls go on alike.**  In front of the same rest, a call yields the same token on a moved line,
or errors of one cause at two places of which one is embedded in the other. -/
theorem Embedded.next (h : l.Embedded before k m) :
    l.next.2.Embedded before k m.next.2 ∧
      ((∃ t, l.next.1 = .token t ∧ m.next.1 = .token (t.shift k)) ∨
        ∃ p q cause, (p = l.skipSpace ∨ p = l.next.2) ∧ p.Embedded before k q ∧
          l.next.1 = p.errorHere cause ∧ m.next.1 = q.errorHere cause) := by
  have hspace := h.skipSpace
  cases hf : l.front with
  | nil =>
    rw [(next_of_front_nil hf).2, (next_of_front_nil (h.front_eq.trans hf)).2]
    refine ⟨⟨hspace.source_eq, hspace.seen_eq, hspace.rest_eq, hspace.line_eq,
      hspace.logical_eq⟩, Or.inl ⟨_, rfl, ?_⟩⟩
    exact congrArg (fun line => Event.token ⟨.endOfInput, [], line⟩) hspace.line_eq
  | cons c r =>
    obtain ⟨-, hevent, hnext⟩ := next_of_front_cons hf
    obtain ⟨-, hevent', hnext'⟩ := next_of_front_cons (h.front_eq.trans hf)
    rw [h.logical_eq] at hevent' hnext'
    have hbehind := hspace.advance (Lexed.read l.logical c r).taken (Lexed.read l.logical c r).rest
    rw [hevent, hevent', hnext, hnext']
    refine ⟨hbehind, ?_⟩
    generalize Lexed.read l.logical c r = x at hbehind ⊢
    obtain ⟨item, w, s⟩ := x
    cases item with
    | token kind lexeme =>
      refine Or.inl ⟨_, rfl, ?_⟩
      exact congrArg (fun line => Event.token ⟨kind, lexeme, line⟩) hspace.line_eq
    | fault cause =>
      refine Or.inr ?_
      rw [eventOf_fault, eventOf_fault]
      split
      · exact ⟨_, _, _, Or.inr rfl, hbehind, rfl, rfl⟩
      · exact ⟨_, _, _, Or.inl rfl, hspace, rfl, rfl⟩

/-- Errors at embedded places behind a line feed differ in their lines only. -/
theorem Embedded.errorHere_eq (h : l.Embedded before k m) (hbefore : before.head? = some '\n')
    {cause : Cause} {d : Diagnostic} (hd : l.errorHere cause = .error d) :
    m.errorHere cause = .error (d.shift k) := by
  cases hd
  rw [errorHere, h.lineText_eq (Or.inr hbefore), h.line_eq, h.source_eq]
  rfl

end

/-! ## Runs -/

/-- Behind a line feed, two runs in front of the same rest differ in their line numbers only. -/
theorem Embedded.drain {before : Text} {k : Int} (hbefore : before.head? = some '\n')
    {l m : Lexer} (h : l.Embedded before k m) :
    m.drain.tokens = l.drain.tokens.map (Token.shift k) ∧
      m.drain.failure = l.drain.failure.map (Diagnostic.shift k) := by
  induction l using induction_on_next generalizing m with
  | h l ih =>
    by_cases hf : l.front = []
    · rw [drain_of_front_nil hf, drain_of_front_nil (h.front_eq.trans hf)]
      have hline := h.skipSpace.line_eq
      exact ⟨congrArg (fun line => [(⟨.endOfInput, [], line⟩ : Token)]) hline, rfl⟩
    · have hf' : m.front ≠ [] := h.front_eq ▸ hf
      obtain ⟨hnext, ⟨t, ht, ht'⟩ | ⟨p, q, cause, -, hpq, hp, hq⟩⟩ := h.next
      · obtain ⟨htokens, hfailure⟩ := ih hf hnext
        rw [drain_of_next_token hf ht, drain_of_next_token hf' ht']
        exact ⟨congrArg (t.shift k :: ·) htokens, hfailure⟩
      · have hd := hpq.errorHere_eq hbefore (d := ⟨cause, _, _⟩) rfl
        rw [drain_of_next_error hf hp, drain_of_next_error hf' (hq.trans hd)]
        exact ⟨rfl, rfl⟩

end Lexer

end LoxLexer
