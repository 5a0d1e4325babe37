import LoxLexer.Text.Digit
import LoxLexer.Text.Quoted

/-!
# Diagnostics

A diagnostic says why a source text could not be read, where, and in which line
of text.  Its wording is a function of the cause.  `render` gives the form
shown to the user:

    name:line: error: message
        source line
    hint: hint
-/

namespace LoxLexer

structure Location where
  source : Text
  line : Int
  deriving DecidableEq, Repr

inductive Cause
  /-- The input ends inside a string literal. -/
  | unterminatedString
  /-- The input ends inside a block comment. -/
  | unterminatedComment
  /-- A word of no category, or a character that starts no token. -/
  | invalidToken (text : Text)
  /-- A logical operator that is not doubled, and what follows it. -/
  | unpairedOperator (operator : Text) (found : Option Text)
  /-- The source could not be read or decoded. -/
  | unreadable (reason : Text)
  /-- Any other condition, in its own words. -/
  | other (message : Text) (hint : Option Text)
  deriving DecidableEq, Repr

structure Diagnostic where
  cause : Cause
  location : Option Location
  sourceLine : Option Text
  deriving DecidableEq, Repr

/-! ## Algorithm -/

def Location.render (l : Location) : Text := l.source ++ ":".toList ++ Text.ofInt l.line

namespace Cause

def message : Cause → Text
  | unterminatedString => "unterminated string literal".toList
  | unterminatedComment => "unterminated block comment".toList
  | invalidToken text => "invalid token '".toList ++ text ++ "'".toList
  | unpairedOperator operator none =>
    "expected '".toList ++ operator ++ operator ++ "', found end of input".toList
  | unpairedOperator operator (some found) =>
    "expected '".toList ++ operator ++ operator ++ "', found '".toList ++ operator ++
      "' followed by ".toList ++ Text.quoted found
  | unreadable reason => "cannot read source: ".toList ++ reason
  | other message _ => message

/-- A word that starts with a digit was meant as a number or as a name. -/
def wordHint (text : Text) : Option Text :=
  if text.head?.any Text.isDigitCharacter then
    if text.contains '.' then
      some "a number has at most one '.' with digits on both sides".toList
    else some "identifiers cannot start with a digit".toList
  else none

def hint : Cause → Option Text
  | unterminatedString => some "add closing '\"' to complete the string".toList
  | unterminatedComment => some "add closing */ to terminate the comment".toList
  | invalidToken text => wordHint text
  | unpairedOperator operator _ =>
    some ("use '".toList ++ operator ++ operator ++ "' for the logical operator".toList)
  | unreadable _ => none
  | other _ hint => hint

end Cause

namespace Diagnostic

def message (d : Diagnostic) : Text := d.cause.message

def hint (d : Diagnostic) : Option Text := d.cause.hint

def line (d : Diagnostic) : Option Int := d.location.map (·.line)

/-- The lines of the rendered form; a source line is shown only below a location. -/
def renderedLines (d : Diagnostic) : List Text :=
  let headline := "error: ".toList ++ d.message
  let first :=
    match d.location with
    | some l =>
      (l.render ++ ": ".toList ++ headline) :: (d.sourceLine.map ("    ".toList ++ ·)).toList
    | none => [headline]
  match d.hint with
  | some (c :: h) => first ++ ["hint: ".toList ++ c :: h]
  | _ => first

def render (d : Diagnostic) : Text := ['\n'].intercalate d.renderedLines

end Diagnostic

end LoxLexer
