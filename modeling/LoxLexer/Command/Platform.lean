import LoxLexer.Command.Exit
import LoxLexer.Encoding.Basic

/-!
# What surrounds the command

A command runs on a platform, which has codecs of its own, encodes what is
written, and knows how the command came to where it is.  None of this is decided
by the command.  The standard output encodes a text as a whole, and refuses one
that its encoding has no form for; standard error takes every text.
-/

namespace LoxLexer

structure Platform where
  /-- The codecs that stand beside those of the registry. -/
  codecs : Encoding.Codecs := Encoding.noCodecs
  /-- Why the standard output refuses a text, if it does. -/
  refusal? : Text → Option Text := fun _ => none
  /-- The calls that led to a failure, as they are written below its report. -/
  trace : Failure → Text := fun _ => []
  /-- What is added to the name of a long option that there is not: the options like it. -/
  suggestion : Text → Text := fun _ => []
  /-- What becomes of the request of a shell to complete a command line. -/
  completion : Text → Outcome := fun _ => ⟨.scanError, [], []⟩

namespace Platform

/-- A text goes out, or it is refused. -/
def write (p : Platform) (t : Text) : Except Failure Text :=
  match p.refusal? t with
  | none => .ok t
  | some complaint => .error (.internal complaint)

theorem write_of_taken {p : Platform} {t : Text} (h : p.refusal? t = none) : p.write t = .ok t := by
  rw [write, h]

theorem write_of_refused {p : Platform} {t complaint : Text} (h : p.refusal? t = some complaint) :
    p.write t = .error (.internal complaint) := by
  rw [write, h]

end Platform

end LoxLexer
