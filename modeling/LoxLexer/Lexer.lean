import LoxLexer.Cursor
import LoxLexer.Lexed
import LoxLexer.Token.Basic

/-!
# The lexer

A lexer is a cursor in a source text, the number of the line it is on, and the
switch for logical operators.  `next` hands out one event, a token or an error;
the end token comes again and again once only space is left.  An error takes the
text that it is about, so a lexer can always go on behind it.  An event has the
number of its line, which nobody has written yet: that is done by a call of a
reader, and it can fail (`Reader.call`).

    l.step? = some (e, l') → l'.cursor.rest.length < l.cursor.rest.length      (step?_rest_lt)
    l.next.2.cursor.text = l.cursor.text                                       (text_next)
    l.step? = some (e, l') → l.events = (e :: l'.events.1, l'.events.2)        (events_of_some)

Hence the runs below, `drain` up to the first error and `events` past all
errors, come to an end.
-/

namespace LoxLexer

structure Lexer where
  /-- The name of the source. -/
  source : Text
  cursor : Cursor
  line : Int
  /-- Whether doubled `&` and `|` are tokens. -/
  logical : Bool
  /-- Whether the end token has been handed out. -/
  finished : Bool
  deriving DecidableEq, Repr

inductive Event
  | token (token : Token)
  | error (diagnostic : Diagnostic)
  deriving DecidableEq, Repr

def Event.line? : Event → Option Int
  | token t => some t.line
  | error d => d.line

namespace Lexer

/-! ## Algorithm -/

def start (source : Text) (firstLine : Int) (logical : Bool) (text : Text) : Lexer :=
  ⟨source, .ofText text, firstLine, logical, false⟩

/-- The lexer behind `taken`, which stands in front of `rest`. -/
def advance (l : Lexer) (taken rest : Text) : Lexer :=
  { l with cursor := l.cursor.advance taken rest, line := l.line + taken.count '\n' }

def skipSpace (l : Lexer) : Lexer :=
  l.advance (l.cursor.rest.takeWhile isSpace) (l.cursor.rest.dropWhile isSpace)

/-- The error with a cause at a lexer's place. -/
def errorHere (l : Lexer) (cause : Cause) : Event :=
  .error ⟨cause, some ⟨l.source, l.line⟩, some l.cursor.lineText⟩

/-- The event for what was read here.  A string that runs out is reported where
it runs out, everything else where it starts. -/
def eventOf (l : Lexer) (x : Lexed) : Event :=
  match x.item with
  | .token kind lexeme => .token ⟨kind, lexeme, l.line⟩
  | .fault .unterminatedString => (l.advance x.taken x.rest).errorHere .unterminatedString
  | .fault cause => l.errorHere cause

/-- The next event before the end, and the lexer behind it. -/
def step? (l : Lexer) : Option (Event × Lexer) :=
  match l.skipSpace.cursor.rest with
  | [] => none
  | c :: r =>
    let x := Lexed.read l.logical c r
    some (l.skipSpace.eventOf x, l.skipSpace.advance x.taken x.rest)

/-- The lexer at the end of its text. -/
def finish (l : Lexer) : Lexer := { l.skipSpace with finished := true }

def endToken (l : Lexer) : Token := ⟨.endOfInput, [], l.line⟩

def next (l : Lexer) : Event × Lexer :=
  match l.step? with
  | some (e, l') => (e, l')
  | none => (.token l.finish.endToken, l.finish)

/-- A run up to the end token or the first error. -/
structure Drained where
  tokens : List Token
  failure : Option Diagnostic
  lexer : Lexer
  deriving DecidableEq, Repr

theorem length_skipSpace_le (l : Lexer) :
    l.skipSpace.cursor.rest.length ≤ l.cursor.rest.length := by
  have h := List.takeWhile_append_dropWhile (p := isSpace) (l := l.cursor.rest)
  have := congrArg List.length h
  simp only [List.length_append] at this
  simp only [skipSpace, advance, Cursor.advance]
  omega

/-- A step takes something. -/
theorem step?_rest_lt {l l' : Lexer} {e : Event} (h : l.step? = some (e, l')) :
    l'.cursor.rest.length < l.cursor.rest.length := by
  have hle := length_skipSpace_le l
  unfold step? at h
  split at h
  · cases h
  · next c r hr =>
    simp only [Option.some.injEq, Prod.mk.injEq] at h
    have hlt := Lexed.length_rest_le l.logical c r
    rw [hr, List.length_cons] at hle
    rw [← h.2]
    simp only [advance, Cursor.advance]
    omega

/-- What `drain` gives behind the tokens in `acc`, which are held last one first. -/
def drainFrom (acc : List Token) (l : Lexer) : Drained :=
  match _h : l.step? with
  | none => ⟨(l.finish.endToken :: acc).reverse, none, l.finish⟩
  | some (.token t, l') => drainFrom (t :: acc) l'
  | some (.error d, l') => ⟨acc.reverse, some d, l'⟩
termination_by l.cursor.rest.length
decreasing_by exact step?_rest_lt _h

def drain (l : Lexer) : Drained := drainFrom [] l

/-- What `events` gives behind the events in `acc`, which are held last one first. -/
def eventsFrom (acc : List Event) (l : Lexer) : List Event × Lexer :=
  match _h : l.step? with
  | none => ((.token l.finish.endToken :: acc).reverse, l.finish)
  | some (e, l') => eventsFrom (e :: acc) l'
termination_by l.cursor.rest.length
decreasing_by exact step?_rest_lt _h

/-- Every event up to the end token, going on behind errors. -/
def events (l : Lexer) : List Event × Lexer := eventsFrom [] l

/-! ## Lemmas -/

theorem text_skipSpace (l : Lexer) : l.skipSpace.cursor.text = l.cursor.text :=
  Cursor.text_advance (List.takeWhile_append_dropWhile (p := isSpace) (l := l.cursor.rest)).symm

theorem text_of_step? {l l' : Lexer} {e : Event} (h : l.step? = some (e, l')) :
    l'.cursor.text = l.cursor.text := by
  unfold step? at h
  split at h
  · cases h
  · next c r hr =>
    simp only [Option.some.injEq, Prod.mk.injEq] at h
    rw [← h.2, ← text_skipSpace l]
    exact Cursor.text_advance (hr.trans (Lexed.taken_append_rest l.logical c r).symm)

theorem drainFrom_eq (acc : List Token) (l : Lexer) :
    drainFrom acc l = { drain l with tokens := acc.reverse ++ (drain l).tokens } := by
  have key : ∀ (acc bcc : List Token) (l : Lexer), drainFrom (acc ++ bcc) l =
      { drainFrom acc l with tokens := bcc.reverse ++ (drainFrom acc l).tokens } := by
    intro acc bcc l
    induction acc, l using drainFrom.induct with
    | case1 acc l h => rw [drainFrom, drainFrom, h]; simp
    | case2 acc l t l' h ih => rw [drainFrom, drainFrom, h]; exact ih
    | case3 acc l d l' h => rw [drainFrom, drainFrom, h]; simp
  exact key [] acc l

theorem drain_of_none {l : Lexer} (h : l.step? = none) :
    l.drain = ⟨[l.finish.endToken], none, l.finish⟩ := by
  rw [drain, drainFrom, h]
  rfl

theorem drain_of_token {l l' : Lexer} {t : Token} (h : l.step? = some (.token t, l')) :
    l.drain = { l'.drain with tokens := t :: l'.drain.tokens } := by
  rw [drain, drainFrom, h]
  exact drainFrom_eq [t] l'

theorem drain_of_error {l l' : Lexer} {d : Diagnostic} (h : l.step? = some (.error d, l')) :
    l.drain = ⟨[], some d, l'⟩ := by
  rw [drain, drainFrom, h]
  rfl

theorem eventsFrom_eq (acc : List Event) (l : Lexer) :
    eventsFrom acc l = (acc.reverse ++ l.events.1, l.events.2) := by
  have key : ∀ (acc bcc : List Event) (l : Lexer), eventsFrom (acc ++ bcc) l =
      (bcc.reverse ++ (eventsFrom acc l).1, (eventsFrom acc l).2) := by
    intro acc bcc l
    induction acc, l using eventsFrom.induct with
    | case1 acc l h => rw [eventsFrom, eventsFrom, h]; simp
    | case2 acc l e l' h ih => rw [eventsFrom, eventsFrom, h]; exact ih
  exact key [] acc l

theorem events_of_none {l : Lexer} (h : l.step? = none) :
    l.events = ([.token l.finish.endToken], l.finish) := by
  rw [events, eventsFrom, h]
  rfl

theorem events_of_some {l l' : Lexer} {e : Event} (h : l.step? = some (e, l')) :
    l.events = (e :: l'.events.1, l'.events.2) := by
  rw [events, eventsFrom, h]
  exact eventsFrom_eq [e] l'

theorem line_le_advance (l : Lexer) (taken rest : Text) :
    l.line ≤ (l.advance taken rest).line := by
  simp only [advance]
  omega

/-- What was read ends on the line of its event or behind it. -/
theorem line?_eventOf_le {l : Lexer} {x : Lexed} {n : Int} (h : (l.eventOf x).line? = some n) :
    n ≤ (l.advance x.taken x.rest).line := by
  have hle := line_le_advance l x.taken x.rest
  unfold eventOf at h
  split at h
  · cases h
    exact hle
  · cases h
    exact Int.le_refl _
  · cases h
    exact hle

/-- No event is behind the line that the lexer goes on from. -/
theorem line?_next_le {l : Lexer} {n : Int} (h : l.next.1.line? = some n) :
    n ≤ l.next.2.line := by
  unfold next at h ⊢
  unfold step? at h ⊢
  split at h
  · next e l' hs =>
    split at hs
    · cases hs
    · next c r hr =>
      cases hs
      exact line?_eventOf_le h
  · next hs =>
    split at hs
    · cases h
      exact Int.le_refl _
    · cases hs

/-- The source text never changes. -/
theorem text_next (l : Lexer) : l.next.2.cursor.text = l.cursor.text := by
  unfold next
  split
  · next h => exact text_of_step? h
  · exact text_skipSpace l

end Lexer

end LoxLexer
