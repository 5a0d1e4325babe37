import LoxLexer.Encoding.Basic
import LoxLexer.Number.Integer

/-!
# Settings

How a source is scanned: the number of its first line, whether doubled `&` and
`|` are operators, and the encoding of its bytes.  Settings come from the
environment of a command; a value that cannot be read leaves the default.
-/

namespace LoxLexer

structure Settings where
  firstLine : Int := 1
  logical : Bool := true
  encoding : Encoding := .named "utf-8".toList

/-- Variables and their values, without a NUL in either. -/
abbrev Environment := List (Text × Text)

namespace Settings

/-! ## Algorithm -/

def firstLineVariable : Text := "PYLOX_FIRST_LINE".toList

def logicalVariable : Text := "PYLOX_LOGICAL_OPERATORS".toList

def encodingVariable : Text := "PYLOX_ENCODING".toList

/-- The value of a variable; an empty one counts as unset. -/
def lookup (env : Environment) (name : Text) : Option Text :=
  match env.lookup name with
  | some [] => none
  | v => v

def trueWords : List Text := ["1".toList, "true".toList, "yes".toList, "on".toList]

def falseWords : List Text := ["0".toList, "false".toList, "no".toList, "off".toList]

/-- A switch in words.  Lower-casing ASCII letters is enough: no other character has a letter of
these words as its lower case. -/
def readSwitch (t : Text) : Option Bool :=
  let word := (Text.trim Text.isBlank t).map Char.toLower
  if trueWords.contains word then some true
  else if falseWords.contains word then some false
  else none

def firstLineOf (env : Environment) : Option Int :=
  (lookup env firstLineVariable).bind fun t => (Number.readInteger t).toOption

def logicalOf (env : Environment) : Option Bool :=
  (lookup env logicalVariable).bind readSwitch

def encodingOf (env : Environment) : Option Text := lookup env encodingVariable

/-- The settings of an environment, where names of encodings stand for these codecs. -/
def ofEnvironment (codecs : Encoding.Codecs) (env : Environment) : Settings :=
  let default : Settings := {}
  { firstLine := (firstLineOf env).getD default.firstLine
    logical := (logicalOf env).getD default.logical
    encoding := .ofCodecs codecs ((encodingOf env).getD default.encoding.name) }

end Settings

end LoxLexer
