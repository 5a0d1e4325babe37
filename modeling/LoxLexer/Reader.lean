import LoxLexer.Buffer
import LoxLexer.Input
import LoxLexer.Lexer
import LoxLexer.Settings

/-!
# Reading character by character

A reader is a lexer at work.  It takes its source out of a buffer, one character
at a time and at most one step back, counts the line feeds that it passes, and
keeps a mode, which says what it is in the middle of.  A call comes to a token,
to the end token, which is then kept, or to a stop.  The log of a call holds the
line of its token or diagnostic, so a call also stops at a line number that is
too long to be written.

A buffer that has nothing left, or nothing to take back, complains.  Some calls
of the buffer expect that, and the others would pass the complaint on.
-/

namespace LoxLexer

/-- What a reader is in the middle of. -/
inductive Mode
  | betweenTokens
  | inString
  | inLineComment
  | inBlockComment
  | inWord
  /-- At the end, with the end token that was handed out. -/
  | done (ending : Token)
  deriving DecidableEq, Repr

def Mode.isDone : Mode → Bool
  | done _ => true
  | _ => false

/-- Why a call gives no token. -/
inductive Stop
  | diagnostic (d : Diagnostic)
  /-- A complaint of the buffer that nobody expected. -/
  | buffer (e : BufferError)
  | lineTooLong
  deriving DecidableEq, Repr

abbrev Answer := Except Stop Token

def Stop.failure : Stop → Failure
  | diagnostic d => .diagnostic d
  | buffer e => .internal e.message
  | lineTooLong => .lineTooLong

structure Reader where
  source : Text
  buffer : Buffer
  line : Int
  logical : Bool
  mode : Mode
  deriving DecidableEq, Repr

/-! ## Words in a buffer -/

/-- Whether the next character lets a word go on. -/
def Buffer.joins (b : Buffer) : Except BufferError Bool :=
  match b.glance 1 with
  | .ok (some c) =>
    if isWordChar c then .ok true
    else if c = '.' then (b.glance 2).map fun d => d.any Char.isDigit
    else .ok false
  | .ok none => .ok false
  | .error e => .error e

namespace Reader

/-! ## Algorithm -/

def start (source : Text) (firstLine : Int) (logical : Bool) (text : Text) : Reader :=
  ⟨source, .ofText text, firstLine, logical, .betweenTokens⟩

/-- The reader of a source, if that can be read. -/
def ofInput (source : Text) (settings : Settings) (input : Input) : Except Failure Reader := do
  let text ← input.load settings.encoding ⟨source, settings.firstLine⟩
  return start source settings.firstLine settings.logical text

def withBuffer (s : Reader) (buffer : Buffer) : Reader := { s with buffer }

def enter (s : Reader) (mode : Mode) : Reader := { s with mode }

/-- The reader behind a character that may be a line feed. -/
def pass (s : Reader) (c : Char) (buffer : Buffer) : Reader :=
  { s with buffer, line := if c = '\n' then s.line + 1 else s.line }

def token (s : Reader) (kind : Kind) (lexeme : Text) : Answer × Reader :=
  (.ok ⟨kind, lexeme, s.line⟩, s)

def refuse (s : Reader) (cause : Cause) (line : Int) (sourceLine : Text) : Answer × Reader :=
  (.error (.diagnostic ⟨cause, some ⟨s.source, line⟩, some sourceLine⟩), s)

def complain (s : Reader) (e : BufferError) : Answer × Reader := (.error (.buffer e), s)

def comparison (s : Reader) (single double : Kind) (c : Char) : Answer × Reader :=
  match s.buffer.accept '=' with
  | .ok (true, b) => (s.withBuffer b).token double [c, '=']
  | .ok (false, b) => (s.withBuffer b).token single [c]
  | .error e => s.complain e

/-- A character that has to be doubled; the other one is looked at before it is taken. -/
def operator (s : Reader) (kind : Kind) (c : Char) : Answer × Reader :=
  match s.buffer.glance 1 with
  | .ok following =>
    if following = some c then
      match s.buffer.next with
      | .ok (_, b) => (s.withBuffer b).token kind [c, c]
      | .error e => s.complain e
    else
      s.refuse (.unpairedOperator [c] (following.map fun d => [d])) s.line (s.buffer.lineText none)
  | .error e => s.complain e

/-- A comment to the end of the line, behind the characters in `acc`, which are held last one
first. -/
def lineCommentFrom (line : Int) (acc : Text) (s : Reader) : Answer × Reader :=
  match _h : s.buffer.next with
  | .ok (c, b) =>
    if c = '\n' then (.ok ⟨.comment, Lexed.trimReturn acc.reverse, line⟩, s.pass c b)
    else lineCommentFrom line (c :: acc) (s.withBuffer b)
  | .error .endOfInput => (.ok ⟨.comment, Lexed.trimReturn acc.reverse, line⟩, s)
  | .error e => s.complain e
termination_by s.buffer.remaining
decreasing_by exact Buffer.remaining_of_next _h

/-- A comment up to its end mark, which began at `line`, with its text at `place`. -/
def blockCommentFrom (line : Int) (place : Nat) (acc : Text) (s : Reader) : Answer × Reader :=
  match _h : s.buffer.next with
  | .ok (c, b) =>
    if c = '*' then
      match _h' : b.accept '/' with
      | .ok (true, b') => (.ok ⟨.comment, acc.reverse, line⟩, s.withBuffer b')
      | .ok (false, b') => blockCommentFrom line place (c :: acc) (s.withBuffer b')
      | .error e => (s.withBuffer b).complain e
    else blockCommentFrom line place (c :: acc) (s.pass c b)
  | .error .endOfInput => s.refuse .unterminatedComment line (s.buffer.lineText (some place))
  | .error e => s.complain e
termination_by s.buffer.remaining
decreasing_by
  · exact Nat.lt_of_le_of_lt (Buffer.remaining_of_accept _h') (Buffer.remaining_of_next _h)
  · exact Buffer.remaining_of_next _h

def slash (s : Reader) : Answer × Reader :=
  match s.buffer.accept '/' with
  | .ok (true, b) => lineCommentFrom s.line [] ((s.withBuffer b).enter .inLineComment)
  | .ok (false, b) =>
    match b.accept '*' with
    | .ok (true, b') =>
      blockCommentFrom s.line b'.position [] ((s.withBuffer b').enter .inBlockComment)
    | .ok (false, b') => (s.withBuffer b').token .divide ['/']
    | .error e => (s.withBuffer b).complain e
  | .error e => s.complain e

/-- A string literal that began at `line`; one that runs out is reported where it does. -/
def stringFrom (line : Int) (acc : Text) (s : Reader) : Answer × Reader :=
  match _h : s.buffer.next with
  | .ok (c, b) =>
    if c = '"' then (.ok ⟨.string, acc.reverse, line⟩, s.withBuffer b)
    else stringFrom line (c :: acc) (s.pass c b)
  | .error .endOfInput => s.refuse .unterminatedString s.line (s.buffer.lineText none)
  | .error e => s.complain e
termination_by s.buffer.remaining
decreasing_by exact Buffer.remaining_of_next _h

def wordFrom (acc : Text) (s : Reader) : Except BufferError Text × Reader :=
  match s.buffer.joins with
  | .ok true =>
    match _h : s.buffer.next with
    | .ok (c, b) => wordFrom (c :: acc) (s.withBuffer b)
    | .error e => (.error e, s)
  | .ok false => (.ok acc.reverse, s)
  | .error e => (.error e, s)
termination_by s.buffer.remaining
decreasing_by exact Buffer.remaining_of_next _h

/-- A word, or else one character that starts no token. -/
def word (s : Reader) : Answer × Reader :=
  let place := s.buffer.position
  match (s.enter .inWord).wordFrom [] with
  | (.ok [], s') =>
    match s'.buffer.next with
    | .ok (c, b) =>
      (s'.withBuffer b).refuse (.invalidToken [c]) s'.line (b.lineText (some place))
    | .error e => s'.complain e
  | (.ok w, s') =>
    match Kind.ofWord? w with
    | some kind => s'.token kind w
    | none => s'.refuse (.invalidToken w) s'.line (s'.buffer.lineText (some place))
  | (.error e, s') => s'.complain e

/-- What starts with the character `c`, which has been taken.  A word takes it again. -/
def read (s : Reader) (c : Char) : Answer × Reader :=
  match Kind.punctuation.lookup c, Kind.comparisons.lookup c, Kind.logical.lookup c, s.logical with
  | some kind, _, _, _ => s.token kind [c]
  | none, some (single, double), _, _ => s.comparison single double c
  | none, none, some kind, true => s.operator kind c
  | none, none, _, _ =>
    if c = '/' then s.slash
    else if c = '"' then stringFrom s.line [] (s.enter .inString)
    else
      match s.buffer.giveBack with
      | .ok b => (s.withBuffer b).word
      | .error e => s.complain e

/-- Passes spaces and reads what follows, or comes to the end. -/
def scan (s : Reader) : Answer × Reader :=
  match _h : s.buffer.next with
  | .ok (c, b) => if isSpace c then scan (s.pass c b) else (s.withBuffer b).read c
  | .error .endOfInput =>
    let ending : Token := ⟨.endOfInput, [], s.line⟩
    (.ok ending, s.enter (.done ending))
  | .error e => s.complain e
termination_by s.buffer.remaining
decreasing_by exact Buffer.remaining_of_next _h

/-- The answer when its line has been written to the log. -/
def logged : Answer → Answer
  | .ok t => if Number.isWritable t.line then .ok t else .error .lineTooLong
  | .error (.diagnostic d) =>
    if d.line.all Number.isWritable then .error (.diagnostic d) else .error .lineTooLong
  | .error e => .error e

/-- A reader that is not at the end is between tokens again. -/
def settle (s : Reader) : Reader :=
  match s.mode with
  | .done _ => s
  | _ => s.enter .betweenTokens

/-- The next token, and the same end token for ever. -/
def call (s : Reader) : Answer × Reader :=
  match s.mode with
  | .done ending => (.ok ending, s)
  | _ => (logged s.scan.1, s.scan.2.settle)

/-- The switch for logical operators, from the next token on. -/
def setLogical (s : Reader) (logical : Bool) : Reader := { s with logical }

end Reader

end LoxLexer
