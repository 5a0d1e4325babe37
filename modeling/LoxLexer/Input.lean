import LoxLexer.Encoding.Basic
import LoxLexer.Failure
import LoxLexer.Number.Integer

/-!
# Inputs

What may be scanned: a text, bytes, or a reader that yields one of these, all of
it at once.  `Input.load` gives the text.  Bytes are decoded, and one byte order
mark in front of the text is dropped, wherever the text came from.  A source that
cannot be read is reported at its first line, whose number has to be written for
that.

    (Input.content (.text t)).load enc loc = .ok (dropMark t)              (load_text)
-/

namespace LoxLexer

inductive Content
  | text (t : Text)
  | bytes (bs : Bytes)
  /-- Bytes that can be changed; what they are now counts. -/
  | mutableBytes (bs : Bytes)
  /-- Something else, by the name of its type. -/
  | other (typeName : Text)
  deriving DecidableEq, Repr

/-- Why a reader yields nothing. -/
inductive ReadError
  | system (e : SystemError)
  | value (message : Text)
  | endOfFile (message : Text)
  /-- Any other condition in its own words. -/
  | other (message : Text)
  deriving DecidableEq, Repr

inductive Input
  | content (c : Content)
  | reader (result : Except ReadError Content)

namespace Input

/-! ## Algorithm -/

def byteOrderMark : Char := '\ufeff'

def dropMark : Text → Text
  | c :: t => if c = byteOrderMark then t else c :: t
  | [] => []

/-- The failure of a source that cannot be read, at its first line if that can be written. -/
def unreadable (location : Location) (reason : Text) : Failure :=
  if Number.isWritable location.line then .diagnostic ⟨.unreadable reason, some location, none⟩
  else .lineTooLong

/-- Only the system's own errors are about the source. -/
def read (location : Location) : Input → Except Failure Content
  | content c => .ok c
  | reader (.ok c) => .ok c
  | reader (.error (.system e)) => .error (unreadable location e.message)
  | reader (.error (.value m)) => .error (.readerValue m)
  | reader (.error (.endOfFile m)) => .error (.readerEnd m)
  | reader (.error (.other m)) => .error (.internal m)

/-- Bytes that are malformed, and names that no encoding of text goes by, are about the source. -/
def decodeBytes (encoding : Encoding) (location : Location) (bs : Bytes) : Except Failure Text :=
  match encoding.decode bs with
  | .ok t => .ok t
  | .error e =>
    match e with
    | .refused _ => .error (.refusedEncoding e.message)
    | .nulInName => .error (.embeddedNul e.message)
    | .other m => .error (.internal m)
    | e => .error (unreadable location e.message)

def decode (encoding : Encoding) (location : Location) : Content → Except Failure Text
  | .text t => .ok t
  | .bytes bs => decodeBytes encoding location bs
  | .mutableBytes bs => decodeBytes encoding location bs
  | .other typeName => .error (.unsupported typeName)

def load (encoding : Encoding) (location : Location) (input : Input) : Except Failure Text := do
  let c ← input.read location
  let t ← decode encoding location c
  return dropMark t

/-! ## Lemmas -/

theorem dropMark_of_head?_ne {t : Text} (h : t.head? ≠ some byteOrderMark) : dropMark t = t := by
  cases t with
  | nil => rfl
  | cons c t => exact if_neg fun hc => h (congrArg some hc)

theorem load_text (encoding : Encoding) (location : Location) (t : Text) :
    (content (.text t)).load encoding location = .ok (dropMark t) := rfl

theorem unreadable_of_writable {location : Location}
    (h : Number.isWritable location.line = true) (reason : Text) :
    unreadable location reason = .diagnostic ⟨.unreadable reason, some location, none⟩ := if_pos h

theorem unreadable_of_not_writable {location : Location}
    (h : Number.isWritable location.line = false) (reason : Text) :
    unreadable location reason = .lineTooLong := by
  rw [unreadable, h, if_neg Bool.false_ne_true]

end Input

end LoxLexer
