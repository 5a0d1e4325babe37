import LoxLexer.Diagnostic

/-!
# Failures

Everything that can end a scan other than its end of input.  A diagnostic is
about the source text; the others are about what surrounds it.
-/

namespace LoxLexer

/-- The conditions of the file system that are told apart. -/
inductive SystemCondition
  | missing
  | denied
  | directory
  | general
  deriving DecidableEq, Repr

structure SystemError where
  condition : SystemCondition
  message : Text
  deriving DecidableEq, Repr

inductive Failure
  | diagnostic (d : Diagnostic)
  /-- An error of the Lox tools in its own words. -/
  | general (message : Text)
  /-- A parameter of a command that was refused. -/
  | badParameter (message : Text)
  | system (e : SystemError)
  /-- A thing that is neither text nor bytes nor a reader of these. -/
  | unsupported (typeName : Text)
  /-- A reader that refused with a complaint about a value. -/
  | readerValue (message : Text)
  /-- A reader that came to its end too early. -/
  | readerEnd (message : Text)
  /-- An encoding that refuses everything. -/
  | refusedEncoding (message : Text)
  /-- A NUL in a name or a value that cannot hold one. -/
  | embeddedNul (message : Text)
  /-- A line number with more digits than are ever written. -/
  | lineTooLong
  /-- Any other condition in its own words. -/
  | internal (message : Text)
  deriving DecidableEq, Repr

/-! ## Algorithm -/

namespace SystemError

def conditionOfCode (code : Int) : SystemCondition :=
  if code = 2 then .missing
  else if code = 1 || code = 13 then .denied
  else if code = 21 then .directory
  else .general

/-- The wording of an error with a number, and a file if one is concerned. -/
def codedMessage (code : Int) (text : Text) (file : Option Text) : Text :=
  "[Errno ".toList ++ Text.ofInt code ++ "] ".toList ++ text ++
    match file with
    | some f => ": ".toList ++ Text.quoted f
    | none => []

def coded (code : Int) (text : Text) (file : Option Text) : SystemError :=
  ⟨conditionOfCode code, codedMessage code text file⟩

def isDirectory (path : Text) : SystemError := coded 21 "Is a directory".toList (some path)

def nameTooLong (path : Text) : SystemError := coded 36 "File name too long".toList (some path)

end SystemError

def Failure.message : Failure → Text
  | diagnostic d => d.render
  | general m => m
  | badParameter m => m
  | system e => e.message
  | unsupported typeName =>
    "cannot scan ".toList ++ typeName ++ "; expected str, bytes or a readable stream".toList
  | readerValue m => m
  | readerEnd m => m
  | refusedEncoding m => m
  | embeddedNul m => m
  | lineTooLong =>
    "Exceeds the limit (4300 digits) for integer string conversion; ".toList ++
      "use sys.set_int_max_str_digits() to increase the limit".toList
  | internal m => m

end LoxLexer
