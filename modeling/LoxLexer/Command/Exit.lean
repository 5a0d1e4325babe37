import LoxLexer.Command.Terminal
import LoxLexer.Failure

/-!
# How a command ends

A command ends with a status and two texts, and with a report of its failure if
it has one.
-/

namespace LoxLexer

inductive Exit
  | success
  /-- Invalid source text, or a source that cannot be read. -/
  | scanError
  /-- Invalid arguments, or files that cannot be reached. -/
  | invalidArguments
  | internalError
  deriving DecidableEq, Repr

namespace Exit

/-! ## Algorithm -/

def code : Exit → Nat
  | success => 0
  | scanError => 1
  | invalidArguments => 2
  | internalError => 3

def name : Exit → Text
  | success => "SUCCESS".toList
  | scanError => "SCAN_ERROR".toList
  | invalidArguments => "INVALID_ARGS".toList
  | internalError => "INTERNAL_ERROR".toList

def ofFailure : Failure → Exit
  | .diagnostic _ => scanError
  | .general _ => scanError
  | .badParameter _ => invalidArguments
  | .system ⟨.missing, _⟩ => invalidArguments
  | .system ⟨.denied, _⟩ => invalidArguments
  | _ => internalError

/-! ## Lemmas -/

theorem code_injective {a b : Exit} (h : a.code = b.code) : a = b := by
  cases a <;> cases b <;> simp_all [code]

theorem ofFailure_ne_success (f : Failure) : ofFailure f ≠ success := by
  unfold ofFailure
  split <;> decide

end Exit

/-- A status, and what has been written to the standard output and to standard error. -/
structure Outcome where
  exit : Exit
  stdout : Text
  stderr : Text
  deriving DecidableEq, Repr

namespace Failure

/-- The headline of a failure; a diagnostic speaks for itself. -/
def headline (f : Failure) : Text :=
  match f with
  | .diagnostic d => d.render
  | f =>
    match Exit.ofFailure f with
    | .internalError => "Internal error: ".toList ++ f.message
    | _ => "Error: ".toList ++ f.message

/-- What is written about a failure.  Behind an internal error stands the trace of the calls that
led to it, if that is asked for. -/
def report (trace : Text) (verbose : Bool) (f : Failure) : Text :=
  Terminal.plain (f.headline ++ ['\n']) ++
    if verbose && Exit.ofFailure f = .internalError then trace else []

end Failure

end LoxLexer
