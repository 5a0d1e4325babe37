import LoxLexer.Text.Basic

/-!
# Kinds of tokens

The closed set of token kinds of Lox and the tables that say how the kinds with
a fixed spelling are spelt.  A keyword has a kind of its own, so a reader of
tokens never looks at identifier text again.

    Kind.ofName? k.name = some k                                (Kind.ofName?_name)
-/

namespace LoxLexer

inductive Kind
  | leftParen | rightParen | leftBrace | rightBrace
  | comma | dot | minus | plus | semicolon | multiply | divide
  | bang | bangEqual | equal | doubleEqual | greater | greaterEqual | less | lessEqual
  | identifier | string | integer | float
  | kwAnd | kwOr | kwClass | kwElse | kwFalse | kwFun | kwFor | kwIf | kwNil
  | kwPrint | kwReturn | kwSuper | kwThis | kwTrue | kwVar | kwWhile
  | comment | endOfInput
  deriving DecidableEq, Repr

namespace Kind

/-! ## Names -/

/-- Every kind, in the order of its number. -/
def all : List Kind :=
  [leftParen, rightParen, leftBrace, rightBrace,
   comma, dot, minus, plus, semicolon, multiply, divide,
   bang, bangEqual, equal, doubleEqual, greater, greaterEqual, less, lessEqual,
   identifier, string, integer, float,
   kwAnd, kwOr, kwClass, kwElse, kwFalse, kwFun, kwFor, kwIf, kwNil,
   kwPrint, kwReturn, kwSuper, kwThis, kwTrue, kwVar, kwWhile,
   comment, endOfInput]

def name : Kind → Text
  | leftParen => "LEFTPAREN".toList
  | rightParen => "RIGHTPAREN".toList
  | leftBrace => "LEFTBRACE".toList
  | rightBrace => "RIGHTBRACE".toList
  | comma => "COMMA".toList
  | dot => "DOT".toList
  | minus => "MINUS".toList
  | plus => "PLUS".toList
  | semicolon => "SEMICOLON".toList
  | multiply => "MULTIPLY".toList
  | divide => "DIVIDE".toList
  | bang => "BANG".toList
  | bangEqual => "BANGEQUAL".toList
  | equal => "EQUAL".toList
  | doubleEqual => "DOUBLEEQUAL".toList
  | greater => "GREATER".toList
  | greaterEqual => "GREATEREQUAL".toList
  | less => "LESS".toList
  | lessEqual => "LESSEQUAL".toList
  | identifier => "IDENTIFIER".toList
  | string => "STRING".toList
  | integer => "INTEGER".toList
  | float => "FLOAT".toList
  | kwAnd => "AND".toList
  | kwOr => "OR".toList
  | kwClass => "CLASS".toList
  | kwElse => "ELSE".toList
  | kwFalse => "FALSE".toList
  | kwFun => "FUN".toList
  | kwFor => "FOR".toList
  | kwIf => "IF".toList
  | kwNil => "NIL".toList
  | kwPrint => "PRINT".toList
  | kwReturn => "RETURN".toList
  | kwSuper => "SUPER".toList
  | kwThis => "THIS".toList
  | kwTrue => "TRUE".toList
  | kwVar => "VAR".toList
  | kwWhile => "WHILE".toList
  | comment => "COMMENT".toList
  | endOfInput => "EOF".toList

def ofName? (name : Text) : Option Kind := all.find? (·.name = name)

/-- The number of a kind, counted from one. -/
def number (k : Kind) : Nat := all.idxOf k + 1

/-! ## Spellings -/

/-- The reserved words. -/
def keywords : List (Text × Kind) :=
  [("and".toList, kwAnd), ("class".toList, kwClass), ("else".toList, kwElse),
   ("false".toList, kwFalse), ("for".toList, kwFor), ("fun".toList, kwFun), ("if".toList, kwIf),
   ("nil".toList, kwNil), ("or".toList, kwOr), ("print".toList, kwPrint),
   ("return".toList, kwReturn), ("super".toList, kwSuper), ("this".toList, kwThis),
   ("true".toList, kwTrue), ("var".toList, kwVar), ("while".toList, kwWhile)]

/-- The characters that are a token whatever follows. -/
def punctuation : List (Char × Kind) :=
  [('(', leftParen), (')', rightParen), ('*', multiply), ('+', plus), (',', comma), ('-', minus),
   ('.', dot), (';', semicolon), ('\x7b', leftBrace), ('\x7d', rightBrace)]

/-- The characters that are one token alone and another before `=`. -/
def comparisons : List (Char × Kind × Kind) :=
  [('!', bang, bangEqual), ('<', less, lessEqual), ('=', equal, doubleEqual),
   ('>', greater, greaterEqual)]

/-- The characters that are a token when doubled. -/
def logical : List (Char × Kind) := [('&', kwAnd), ('|', kwOr)]

def numberKinds : List Kind := [float, integer]

def keywordKinds : List Kind := keywords.map (·.2)

def isKeyword (k : Kind) : Bool := keywordKinds.contains k

def isNumber (k : Kind) : Bool := numberKinds.contains k

/-! ## Lemmas -/

theorem ofName?_name (k : Kind) : ofName? k.name = some k := by cases k <;> decide

theorem name_injective {j k : Kind} (h : j.name = k.name) : j = k := by
  have hj := ofName?_name j
  rw [h, ofName?_name] at hj
  exact (Option.some.inj hj).symm

/-- Names are made of capital letters. -/
theorem not_mem_name {c : Char} (h : c.isUpper = false) (k : Kind) : c ∉ k.name := by
  have hupper : k.name.all Char.isUpper = true := by cases k <;> decide
  intro hmem
  have hc := List.all_eq_true.mp hupper c hmem
  rw [h] at hc
  cases hc

end Kind

end LoxLexer
