import LoxLexer.Proofs.Rejection
import LoxLexer.Proofs.SourceLines

/-!
# The switch for logical operators

Where `&` and `|` are no operators, each of them is a character that starts no
token.  A doubled operator then gives two errors on its line, and one that is not
doubled another error in its place; every other event, be it for a word such as
`and` or for a string that holds operators, stays as it is.

    without operators, every event stays as it is              (withoutOperators_next)
    a call with operators is one call without them, or two     (Placed.next_withoutOperators)
    l.withoutOperators.events is made of l.events              (Placed.events_withoutOperators)
    so it is for the whole source                              (events_without_operators)
-/

namespace LoxLexer

/-! ## The events without operators -/

/-- The character that a token doubles, if it is a logical operator and not a word. -/
def Token.doubled? (t : Token) : Option Char :=
  if t.kind = .kwAnd ∧ t.lexeme = ['&', '&'] then some '&'
  else if t.kind = .kwOr ∧ t.lexeme = ['|', '|'] then some '|'
  else none

/-- An operator that is not doubled is refused as any other character. -/
def Cause.withoutOperators : Cause → Cause
  | .unpairedOperator operator _ => .invalidToken operator
  | cause => cause

/-- The events that an event of a text turns into where there are no operators. -/
def Event.withoutOperators (source : Text) (first : Int) (text : Text) : Event → List Event
  | .token t =>
    match t.doubled? with
    | some c =>
      List.replicate 2
        (.error ⟨.invalidToken [c], some ⟨source, t.line⟩, text.lines[(t.line - first).toNat]?⟩)
    | none => [.token t]
  | .error d => [.error { d with cause := d.cause.withoutOperators }]

/-! ## Operators -/

theorem Token.doubled?_eq_some_iff {t : Token} {c : Char} :
    t.doubled? = some c ↔ (c, t.kind) ∈ Kind.logical ∧ t.lexeme = [c, c] := by
  obtain ⟨k, x, line⟩ := t
  simp only [doubled?, Kind.logical, List.mem_cons, Prod.mk.injEq, List.not_mem_nil, or_false]
  constructor
  · intro h
    split at h
    · next hand =>
      cases h
      exact ⟨Or.inl ⟨rfl, hand.1⟩, hand.2⟩
    · split at h
      · next hor =>
        cases h
        exact ⟨Or.inr ⟨rfl, hor.1⟩, hor.2⟩
      · cases h
  · rintro ⟨⟨rfl, rfl⟩ | ⟨rfl, rfl⟩, rfl⟩
    · rfl
    · rfl

theorem not_mem_signs_of_mem_logical {c : Char} {k : Kind} (h : (c, k) ∈ Kind.logical) :
    c ∉ signs ∧ isWordChar c = false := by
  have key : ∀ p ∈ Kind.logical, p.1 ∉ signs ∧ isWordChar p.1 = false := by decide
  exact key _ h

/-- Where operators are off, their characters start nothing. -/
theorem not_starts_of_mem_logical {c : Char} {k : Kind} (h : (c, k) ∈ Kind.logical) :
    ¬ Starts false c := by
  obtain ⟨hsign, hword⟩ := not_mem_signs_of_mem_logical h
  rw [starts_iff, hword]
  rintro (hc | ⟨hoff, -⟩ | hc)
  · exact hsign hc
  · cases hoff
  · cases hc

/-- Without operators no token doubles one. -/
theorem Spelling.doubled?_eq_none {final : Prop} {k : Kind} {x w : Text} {line : Int}
    (h : Spelling false final k x w) : (⟨k, x, line⟩ : Token).doubled? = none := by
  have hplain : ∀ p ∈ Kind.logical, p.2.isPlain = true := by decide
  rw [Option.eq_none_iff_forall_ne_some]
  intro c hc
  obtain ⟨hmem, rfl⟩ := Token.doubled?_eq_some_iff.mp hc
  have hk : k.isPlain = true := hplain _ hmem
  have hw : w = [c, c] := by
    rcases h.form with ⟨-, hw⟩ | ⟨rfl, -⟩ | ⟨rfl, -⟩ | ⟨rfl, -⟩
    · exact hw
    all_goals cases hk
  obtain ⟨d, r, hdr, hd⟩ := h.exists_cons
  obtain ⟨rfl, -⟩ := List.cons.inj (hw.symm.trans hdr)
  exact not_starts_of_mem_logical hmem hd

theorem Refusal.withoutOperators_eq {cause : Cause} {w s : Text} (h : Refusal false cause w s) :
    cause.withoutOperators = cause := by
  cases h with
  | operator hoff => cases hoff
  | string _ | comment _ | word _ _ _ _ | character _ => rfl

namespace Lexed

/-- Where operators are off, the character of one is refused alone. -/
theorem read_false_of_mem_logical {c : Char} {k : Kind} (h : (c, k) ∈ Kind.logical) (r : Text) :
    read false c r = ⟨.fault (.invalidToken [c]), [c], r⟩ := by
  obtain ⟨hsign, hword⟩ := not_mem_signs_of_mem_logical h
  have hdot : c ≠ '.' := by
    rintro rfl
    exact hsign (by decide)
  rw [read_of_not_starts (not_starts_of_mem_logical h)]
  exact word_of_not_joins (by simp [joinsWord, hword, hdot])

/-- Every other character is read as if operators were off. -/
theorem read_eq_read_false {logical : Bool} {c : Char}
    (h : ¬ (logical = true ∧ ∃ k, (c, k) ∈ Kind.logical)) (r : Text) :
    read logical c r = read false c r := by
  cases logical with
  | false => rfl
  | true =>
    have hl : Kind.logical.lookup c = none := by
      rw [Option.eq_none_iff_forall_ne_some]
      exact fun k hk => h ⟨rfl, k, lookup_logical_iff.mp hk⟩
    unfold read
    rw [hl]
    cases Kind.punctuation.lookup c with
    | some k => rfl
    | none => cases Kind.comparisons.lookup c <;> rfl

end Lexed

/-! ## Calls -/

namespace Lexer

def withoutOperators (l : Lexer) : Lexer := { l with logical := false }

section
variable {l : Lexer} {first : Int} {text : Text}

/-- An error at a lexer's place shows the line of the text that has the lexer's number. -/
theorem Placed.errorHere_eq (h : l.Placed first text) (cause : Cause) :
    l.errorHere cause =
      .error ⟨cause, some ⟨l.source, l.line⟩, text.lines[(l.line - first).toNat]?⟩ := by
  have hnumber : (l.line - first).toNat = l.cursor.seen.count '\n' := by
    rw [h.line_eq]
    omega
  rw [hnumber, h.lines_count_seen]
  rfl

/-- On one line all places of errors are alike. -/
theorem Placed.errorHere_advance (h : l.Placed first text) {u s : Text}
    (hr : l.cursor.rest = u ++ s) (hu : '\n' ∉ u) (cause : Cause) :
    (l.advance u s).errorHere cause = l.errorHere cause := by
  have hline : (l.advance u s).line = l.line := by
    rw [Lexer.advance, List.count_eq_zero.mpr hu]
    exact Int.add_zero _
  rw [(h.advance hr).errorHere_eq, h.errorHere_eq, hline]
  rfl

/-- A doubled operator turns into an error for each character. -/
theorem Placed.withoutOperators_doubled (h : l.Placed first text) {c : Char} {k : Kind}
    (hk : (c, k) ∈ Kind.logical) :
    Event.withoutOperators l.source first text (.token ⟨k, [c, c], l.line⟩) =
      [l.errorHere (.invalidToken [c]), l.errorHere (.invalidToken [c])] := by
  have hdoubled : (⟨k, [c, c], l.line⟩ : Token).doubled? = some c :=
    Token.doubled?_eq_some_iff.mpr ⟨hk, rfl⟩
  rw [h.errorHere_eq, Event.withoutOperators, hdoubled]
  rfl

/-- Where operators are off, every event stays as it is. -/
theorem withoutOperators_next (source : Text) (first : Int) (text : Text)
    (hl : l.logical = false) : l.next.1.withoutOperators source first text = [l.next.1] := by
  rcases l.next_cases with ⟨-, hn⟩ | ⟨-, ⟨k, x, he, hs⟩ | ⟨cause, he, hr⟩⟩
  · rw [hn]
    rfl
  · rw [hl] at hs
    rw [he, Event.withoutOperators, hs.doubled?_eq_none]
  · rw [hl] at hr
    rw [he]
    exact congrArg (fun cause => [Event.error ⟨cause, _, _⟩]) hr.withoutOperators_eq

/-- The two characters of an operator are met one after the other, on the same line. -/
theorem Placed.next_of_doubled (h : l.Placed first text) (hl : l.logical = true) {c : Char}
    {k : Kind} {s : Text} (hf : l.front = c :: c :: s) (hk : (c, k) ∈ Kind.logical) :
    l.withoutOperators.next.2.front ≠ [] ∧
      l.next.1.withoutOperators l.source first text =
        [l.withoutOperators.next.1, l.withoutOperators.next.2.next.1] ∧
      l.withoutOperators.next.2.next.2 = l.next.2.withoutOperators := by
  have hc : isSpace c = false := isSpace_of_front_cons hf
  have hrest : l.cursor.rest = l.spaces ++ c :: c :: s := by
    rw [← hf]
    exact l.spaces_append_front.symm
  have hread : Lexed.read l.logical c (c :: s) = ⟨.token k [c, c], [c, c], s⟩ := by
    rw [hl, Lexed.read_of_operator _ hk]
    exact if_pos rfl
  have hoff : ∀ r, Lexed.read false c r = ⟨.fault (.invalidToken [c]), [c], r⟩ :=
    Lexed.read_false_of_mem_logical hk
  obtain ⟨-, hevent, hnext⟩ := next_of_read hrest isSpace_of_mem_spaces hc hread
  obtain ⟨-, hevent₁, hnext₁⟩ :=
    next_of_read (l := l.withoutOperators) hrest isSpace_of_mem_spaces hc (hoff (c :: s))
  have hrest₁ : l.withoutOperators.next.2.cursor.rest = [] ++ c :: s :=
    congrArg (·.cursor.rest) hnext₁
  have hread₁ : Lexed.read l.withoutOperators.next.2.logical c s =
      ⟨.fault (.invalidToken [c]), [c], s⟩ := by
    rw [logical_next]
    exact hoff s
  obtain ⟨hfront₂, hevent₂, hnext₂⟩ := next_of_read hrest₁ (by simp) hc hread₁
  have hplaced : (l.advance l.spaces (c :: c :: s)).Placed first text := h.advance hrest
  have hlineFeed : '\n' ∉ [c] := by
    rw [List.mem_singleton]
    rintro rfl
    cases hc
  refine ⟨hfront₂, ?_, ?_⟩
  · have hsecond := hplaced.errorHere_advance (u := [c]) rfl hlineFeed (.invalidToken [c])
    rw [advance_advance] at hsecond
    rw [hevent, hevent₁, hevent₂, hnext₁, advance_advance, List.append_nil]
    refine (hplaced.withoutOperators_doubled hk).trans ?_
    exact congrArg (fun e => [_, e]) hsecond.symm
  · rw [hnext, hnext₂, hnext₁, advance_advance, List.append_assoc]
    rfl

/-- **A call without operators** does what the call with them does, or it takes the first of the
two characters of an operator and the next call takes the second one. -/
theorem Placed.next_withoutOperators (h : l.Placed first text) (hf : l.front ≠ []) :
    l.next.1.withoutOperators l.source first text = [l.withoutOperators.next.1] ∧
        l.withoutOperators.next.2 = l.next.2.withoutOperators ∨
      l.withoutOperators.next.2.front ≠ [] ∧
        l.next.1.withoutOperators l.source first text =
          [l.withoutOperators.next.1, l.withoutOperators.next.2.next.1] ∧
        l.withoutOperators.next.2.next.2 = l.next.2.withoutOperators := by
  obtain ⟨c, r, hcr⟩ := List.exists_cons_of_ne_nil hf
  obtain ⟨-, hevent, hnext⟩ := next_of_front_cons hcr
  obtain ⟨-, hevent', hnext'⟩ := next_of_front_cons (l := l.withoutOperators) hcr
  by_cases hop : l.logical = true ∧ ∃ k, (c, k) ∈ Kind.logical
  · obtain ⟨hl, k, hk⟩ := hop
    by_cases hr : r.head? = some c
    · obtain ⟨s, rfl⟩ := List.head?_eq_some_iff.mp hr
      exact Or.inr (h.next_of_doubled hl hcr hk)
    · rw [hl, Lexed.read_of_operator r hk, Lexed.operator_of_unpaired k hr] at hevent hnext
      rw [show l.withoutOperators.logical = false from rfl,
        Lexed.read_false_of_mem_logical hk] at hevent' hnext'
      rw [hevent, hevent', hnext, hnext']
      exact Or.inl ⟨rfl, rfl⟩
  · rw [Lexed.read_eq_read_false hop] at hevent hnext
    have hsame : l.withoutOperators.next.1 = l.next.1 := hevent'.trans hevent.symm
    refine Or.inl ⟨?_, hnext'.trans ?_⟩
    · rw [← hsame]
      exact withoutOperators_next l.source first text rfl
    · rw [hnext]
      rfl

end

/-! ## Runs -/

/-- **The run without operators** is made of the events of the run with them. -/
theorem Placed.events_withoutOperators {l : Lexer} {first : Int} {text : Text}
    (h : l.Placed first text) :
    l.withoutOperators.events.1 =
      l.events.1.flatMap (Event.withoutOperators l.source first text) := by
  induction l using induction_on_next with
  | h l ih =>
    by_cases hf : l.front = []
    · have hstep := (next_of_front_nil hf).1
      have hstep' := (next_of_front_nil (l := l.withoutOperators) hf).1
      rw [events_of_none hstep, events_of_none hstep']
      rfl
    · have hstep := step?_of_front_ne_nil hf
      have hstep' := step?_of_front_ne_nil (l := l.withoutOperators) hf
      have hrest := ih hf h.next
      rw [l.source_next] at hrest
      rw [events_of_some hstep, List.flatMap_cons, ← hrest, events_of_some hstep']
      rcases h.next_withoutOperators hf with ⟨hevent, hnext⟩ | ⟨hf', hevent, hnext⟩
      · rw [hevent, hnext]
        rfl
      · rw [hevent, events_of_some (step?_of_front_ne_nil hf'), hnext]
        rfl

/-- **The switch for logical operators changes nothing else.**  The events of a source without
operators are the events with them, where two errors come in place of a doubled operator, and in
place of the error for an unpaired one the error for a character that starts nothing. -/
theorem events_without_operators (source : Text) (first : Int) (text : Text) :
    (start source first false text).events.1 =
      (start source first true text).events.1.flatMap
        (Event.withoutOperators source first text) :=
  (placed_start source first true text).events_withoutOperators

/-- A word is no operator. -/
example (source text : Text) (first line : Int) :
    Event.withoutOperators source first text (.token ⟨.kwAnd, "and".toList, line⟩) =
      [.token ⟨.kwAnd, "and".toList, line⟩] := rfl

end Lexer

end LoxLexer
