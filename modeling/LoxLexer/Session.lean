import LoxLexer.Reader

/-!
# Several consumers of one reader

A session is a reader and the iterators that have been opened on it.  Whoever
asks, the one reader is called, so each answer goes to one consumer.  An iterator
stops behind the end token and behind an error; a consumer without an iterator
may always go on.

The settings may be changed while the reader is at work.  Of these it keeps the
switch for logical operators itself.  The others no longer count, because the
text has been decoded and the first line has its number.
-/

namespace LoxLexer

/-- Where an iterator waits. -/
inductive Iteration
  | unstarted
  /-- Behind the token that it has handed out. -/
  | behind (token : Token)
  | spent
  deriving DecidableEq, Repr

namespace Iteration

/-- Whether the iterator has another answer to ask for. -/
def goesOn : Iteration → Bool
  | unstarted => true
  | behind t => t.kind ≠ .endOfInput
  | spent => false

/-- Where an iterator waits when it has handed out an answer. -/
def afterAnswer : Answer → Iteration
  | .ok t => behind t
  | .error _ => spent

/-- The next answer of the reader, or none if the iterator stops. -/
def resume (it : Iteration) (s : Reader) : Option Answer × Iteration × Reader :=
  if it.goesOn then (some s.call.1, afterAnswer s.call.1, s.call.2) else (none, spent, s)

theorem goesOn_behind {t : Token} (h : t.kind ≠ .endOfInput) : (behind t).goesOn = true :=
  decide_eq_true h

theorem stops_behind {t : Token} (h : t.kind = .endOfInput) : (behind t).goesOn = false :=
  decide_eq_false (not_not_intro h)

end Iteration

structure Session where
  reader : Reader
  firstLine : Int
  encoding : Text
  iterators : List Iteration
  deriving DecidableEq, Repr

namespace Session

/-! ## Algorithm -/

/-- What the user of a session may ask for. -/
inductive Request
  | call
  | iterate
  /-- The next item of an iterator, by its number. -/
  | resume (i : Nat)
  | setFirstLine (n : Int)
  | setEncoding (name : Text)
  deriving DecidableEq, Repr

inductive Reply
  | answer (a : Answer)
  | iterator (i : Nat)
  | stop
  | done

def Reply.answer? : Reply → Option Answer
  | answer a => some a
  | _ => none

def start (source : Text) (settings : Settings) (text : Text) : Session :=
  ⟨.start source settings.firstLine settings.logical text, settings.firstLine,
    settings.encoding.name, []⟩

/-- The next answer, for a consumer without an iterator. -/
def call (s : Session) : Answer × Session := (s.reader.call.1, { s with reader := s.reader.call.2 })

/-- A new iterator, by its number. -/
def iterate (s : Session) : Nat × Session :=
  (s.iterators.length, { s with iterators := s.iterators ++ [.unstarted] })

/-- The next answer for an iterator, none if it stops. -/
def resume (s : Session) (i : Nat) : Option Answer × Session :=
  match s.iterators[i]? with
  | some it =>
    let (answer, it', reader) := it.resume s.reader
    (answer, { s with reader, iterators := s.iterators.set i it' })
  | none => (none, s)

/-- The switch for logical operators, from the next token on. -/
def setLogical (s : Session) (logical : Bool) : Session :=
  { s with reader := s.reader.setLogical logical }

/-- The line to report. -/
def line (s : Session) : Except Failure Int :=
  if Number.isWritable s.reader.line then .ok s.reader.line else .error .lineTooLong

def serve (s : Session) : Request → Reply × Session
  | .call => (.answer s.call.1, s.call.2)
  | .iterate => (.iterator s.iterate.1, s.iterate.2)
  | .resume i => ((s.resume i).1.elim .stop .answer, (s.resume i).2)
  | .setFirstLine n => (.done, { s with firstLine := n })
  | .setEncoding name => (.done, { s with encoding := name })

/-- The replies to a schedule of requests, each with its request, and the session behind them. -/
def run (s : Session) : List Request → List (Request × Reply) × Session
  | [] => ([], s)
  | r :: rs => ((r, (s.serve r).1) :: ((s.serve r).2.run rs).1, ((s.serve r).2.run rs).2)

/-! ## Lemmas -/

section
variable {s : Session} {i : Nat} {it : Iteration}

/-- An iterator that goes on hands out what any other consumer would get. -/
theorem resume_of_goesOn (hi : s.iterators[i]? = some it) (h : it.goesOn = true) :
    s.resume i = (some s.call.1,
      { s.call.2 with iterators := s.iterators.set i (.afterAnswer s.call.1) }) := by
  simp [resume, hi, Iteration.resume, h, call]

/-- An iterator that stops leaves the reader alone. -/
theorem resume_of_stops (hi : s.iterators[i]? = some it) (h : it.goesOn = false) :
    s.resume i = (none, { s with iterators := s.iterators.set i .spent }) := by
  simp [resume, hi, Iteration.resume, h]

end

end Session

end LoxLexer
