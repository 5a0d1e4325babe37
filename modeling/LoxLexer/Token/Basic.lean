import LoxLexer.Number.Float
import LoxLexer.Text.Quoted
import LoxLexer.Token.Kind

/-!
# Tokens

A token is a kind, the text it was read from without quotes and comment marks,
and the line it starts on.  `render` is its form in logs and on the command
line, with the lexeme as it stands; `describe` has the lexeme quoted, so it is
always one line.
-/

namespace LoxLexer

structure Token where
  kind : Kind
  lexeme : Text
  line : Int
  deriving DecidableEq, Repr

/-- What a literal denotes; only numbers and strings denote something. -/
inductive Value
  | nothing
  | integer (n : Int)
  | float (bits : Nat)
  | text (t : Text)
  deriving DecidableEq, Repr

namespace Token

/-! ## Algorithm -/

def render (t : Token) : Text :=
  "Token<".toList ++ t.kind.name ++ ", ".toList ++ t.lexeme ++ ", ".toList ++ Text.ofInt t.line ++
    ">".toList

def describe (t : Token) : Text :=
  "Token(".toList ++ t.kind.name ++ ", ".toList ++ Text.quoted t.lexeme ++ ", ".toList ++
    Text.ofInt t.line ++ ")".toList

/-- The literal value; a token that was built by hand may have none. -/
def value (t : Token) : Except NumberError Value :=
  match t.kind with
  | .integer => (Number.readInteger t.lexeme).map .integer
  | .float => (Number.readFloat t.lexeme).map .float
  | .string => .ok (.text t.lexeme)
  | _ => .ok .nothing

def isKeyword (t : Token) : Bool := t.kind.isKeyword

def isNumber (t : Token) : Bool := t.kind.isNumber

end Token

end LoxLexer
