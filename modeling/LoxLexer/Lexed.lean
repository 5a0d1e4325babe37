import LoxLexer.Diagnostic
import LoxLexer.Text.Alphanumeric
import LoxLexer.Token.Kind

/-!
# What stands at the front of a text

`Lexed.read logical c r` looks at a text `c :: r` whose first character `c` is
no space and says what token it starts with, or why it starts with none, what
part of the text that takes, and what is left.

    (Lexed.read logical c r).taken ++ (Lexed.read logical c r).rest = c :: r   (taken_append_rest)
    (Lexed.read logical c r).taken ≠ []                                        (taken_ne_nil)

A word is a longest run of letters, digits and `_` of any script, with any `.`
that an ASCII digit follows.  Whether it is a keyword, an integer, a float, an
identifier or nothing of these is decided on the whole run.
-/

namespace LoxLexer

/-- A token without its place, or the reason why there is none. -/
inductive Item
  | token (kind : Kind) (lexeme : Text)
  | fault (cause : Cause)
  deriving DecidableEq, Repr

structure Lexed where
  item : Item
  taken : Text
  rest : Text
  deriving DecidableEq, Repr

/-! ## Characters and words -/

/-- The characters between tokens. -/
def isSpace (c : Char) : Bool := c = ' ' || c = '\t' || c = '\r' || c = '\n'

def isWordChar (c : Char) : Bool := Text.isAlphanumeric c || c = '_'

/-- Whether a word goes on with `c` in front of `r`. -/
def joinsWord (c : Char) (r : Text) : Bool :=
  isWordChar c || (c = '.' && r.head?.any Char.isDigit)

/-- What `spanWord` gives behind the characters in `acc`, which are held last one first. -/
def spanWordFrom (acc : Text) : Text → Text × Text
  | [] => (acc.reverse, [])
  | c :: r => if joinsWord c r then spanWordFrom (c :: acc) r else (acc.reverse, c :: r)

/-- The word at the front of a text, which may be empty, and what is left. -/
def spanWord (t : Text) : Text × Text := spanWordFrom [] t

def isIntegerText (w : Text) : Bool := w ≠ [] && w.all Char.isDigit

def isFloatText (w : Text) : Bool :=
  match w.dropWhile Char.isDigit with
  | '.' :: b => w.takeWhile Char.isDigit ≠ [] && isIntegerText b
  | _ => false

def isIdentifierText : Text → Bool
  | [] => false
  | c :: r => (c.isAlpha || c = '_') && r.all fun d => d.isAlphanum || d = '_'

/-- The kind of a whole word; a keyword is never an identifier. -/
def Kind.ofWord? (w : Text) : Option Kind :=
  match Kind.keywords.lookup w with
  | some k => some k
  | none =>
    if isIntegerText w then some .integer
    else if isFloatText w then some .float
    else if isIdentifierText w then some .identifier
    else none

/-! ## Algorithm -/

namespace Lexed

/-- A comment's text without the carriage return that ends it. -/
def trimReturn (t : Text) : Text := if t.getLast? = some '\r' then t.dropLast else t

/-- A comment to the end of the line, behind `//`; it takes the line feed. -/
def lineComment (r : Text) : Lexed :=
  let body := r.takeWhile (· != '\n')
  let rest := r.dropWhile (· != '\n')
  ⟨.token .comment (trimReturn body), '/' :: '/' :: (body ++ rest.take 1), rest.drop 1⟩

/-- What `untilClose` gives behind the characters in `acc`, which are held last one first. -/
def untilCloseFrom (acc : Text) : Text → Option (Text × Text)
  | [] => none
  | c :: r =>
    if c = '*' && r.head? = some '/' then some (acc.reverse, r.drop 1)
    else untilCloseFrom (c :: acc) r

/-- What stands before and after the first end mark of a block comment. -/
def untilClose (t : Text) : Option (Text × Text) := untilCloseFrom [] t

/-- A comment up to its end mark, behind `/*`; comments do not nest. -/
def blockComment (r : Text) : Lexed :=
  match untilClose r with
  | some (body, rest) => ⟨.token .comment body, '/' :: '*' :: (body ++ ['*', '/']), rest⟩
  | none => ⟨.fault .unterminatedComment, '/' :: '*' :: r, []⟩

def slash : Text → Lexed
  | '/' :: r => lineComment r
  | '*' :: r => blockComment r
  | r => ⟨.token .divide ['/'], ['/'], r⟩

/-- A string literal behind its opening quote; it may hold line feeds and has no escapes. -/
def string (r : Text) : Lexed :=
  let body := r.takeWhile (· != '"')
  match r.dropWhile (· != '"') with
  | [] => ⟨.fault .unterminatedString, '"' :: body, []⟩
  | quote :: rest => ⟨.token .string body, '"' :: (body ++ [quote]), rest⟩

/-- A character that is one token alone and another before `=`. -/
def comparison (single double : Kind) (c : Char) : Text → Lexed
  | '=' :: r => ⟨.token double [c, '='], [c, '='], r⟩
  | r => ⟨.token single [c], [c], r⟩

/-- A character that has to be doubled; only the first one is taken if it is not. -/
def operator (kind : Kind) (c : Char) : Text → Lexed
  | [] => ⟨.fault (.unpairedOperator [c] none), [c], []⟩
  | d :: r =>
    if d = c then ⟨.token kind [c, c], [c, c], r⟩
    else ⟨.fault (.unpairedOperator [c] (some [d])), [c], d :: r⟩

/-- A word, or else one character that starts no token. -/
def word (c : Char) (r : Text) : Lexed :=
  match spanWord (c :: r) with
  | ([], _) => ⟨.fault (.invalidToken [c]), [c], r⟩
  | (w, rest) =>
    match Kind.ofWord? w with
    | some kind => ⟨.token kind w, w, rest⟩
    | none => ⟨.fault (.invalidToken w), w, rest⟩

def read (logical : Bool) (c : Char) (r : Text) : Lexed :=
  match Kind.punctuation.lookup c, Kind.comparisons.lookup c, Kind.logical.lookup c, logical with
  | some kind, _, _, _ => ⟨.token kind [c], [c], r⟩
  | none, some (single, double), _, _ => comparison single double c r
  | none, none, some kind, true => operator kind c r
  | none, none, _, _ =>
    if c = '/' then slash r
    else if c = '"' then string r
    else word c r

end Lexed

/-! ## Lemmas -/

theorem spanWordFrom_eq (acc t : Text) :
    (spanWordFrom acc t).1 ++ (spanWordFrom acc t).2 = acc.reverse ++ t := by
  induction t generalizing acc with
  | nil => simp [spanWordFrom]
  | cons c r ih =>
    rw [spanWordFrom]
    split
    · rw [ih]
      simp
    · rfl

theorem spanWord_append (t : Text) : (spanWord t).1 ++ (spanWord t).2 = t :=
  spanWordFrom_eq [] t

namespace Lexed

theorem untilCloseFrom_eq {acc t body rest : Text} (h : untilCloseFrom acc t = some (body, rest)) :
    body ++ '*' :: '/' :: rest = acc.reverse ++ t := by
  induction t generalizing acc with
  | nil => simp [untilCloseFrom] at h
  | cons c r ih =>
    rw [untilCloseFrom] at h
    split at h
    · next hc =>
      simp only [Bool.and_eq_true, decide_eq_true_eq] at hc
      obtain ⟨rfl, hr⟩ := hc
      cases r with
      | nil => simp at hr
      | cons d r =>
        simp only [List.head?_cons, Option.some.injEq] at hr
        simp only [List.drop_succ_cons, List.drop_zero, Option.some.injEq, Prod.mk.injEq] at h
        obtain ⟨rfl, rfl⟩ := h
        rw [hr]
    · rw [ih h]
      simp

theorem untilClose_eq {t body rest : Text} (h : untilClose t = some (body, rest)) :
    body ++ '*' :: '/' :: rest = t := untilCloseFrom_eq h

/-- Nothing is lost and something is taken. -/
def Splits (x : Lexed) (t : Text) : Prop := x.taken ++ x.rest = t ∧ x.taken ≠ []

theorem lineComment_splits (r : Text) : Splits (lineComment r) ('/' :: '/' :: r) := by
  refine ⟨?_, by simp [lineComment]⟩
  simp only [lineComment, List.cons_append, List.append_assoc, List.take_append_drop,
    List.takeWhile_append_dropWhile]

theorem blockComment_splits (r : Text) : Splits (blockComment r) ('/' :: '*' :: r) := by
  unfold blockComment
  split
  · next body rest h =>
    refine ⟨?_, by simp⟩
    simp [← untilClose_eq h]
  · exact ⟨by simp, by simp⟩

theorem slash_splits (r : Text) : Splits (slash r) ('/' :: r) := by
  unfold slash
  split
  · exact lineComment_splits _
  · exact blockComment_splits _
  · exact ⟨by simp, by simp⟩

theorem string_splits (r : Text) : Splits (string r) ('"' :: r) := by
  have h := List.takeWhile_append_dropWhile (p := (· != '"')) (l := r)
  unfold string
  simp only
  split
  · next hd =>
    rw [hd] at h
    exact ⟨by simpa using h, by simp⟩
  · next q rest hd =>
    rw [hd] at h
    exact ⟨by simpa using h, by simp⟩

theorem comparison_splits (single double : Kind) (c : Char) (r : Text) :
    Splits (comparison single double c r) (c :: r) := by
  unfold comparison
  split <;> exact ⟨by simp, by simp⟩

theorem operator_splits (kind : Kind) (c : Char) (r : Text) :
    Splits (operator kind c r) (c :: r) := by
  unfold operator
  split
  · exact ⟨by simp, by simp⟩
  · split
    · next h => subst h; exact ⟨by simp, by simp⟩
    · exact ⟨by simp, by simp⟩

theorem word_splits (c : Char) (r : Text) : Splits (word c r) (c :: r) := by
  have h := spanWord_append (c :: r)
  unfold word
  split
  · exact ⟨by simp, by simp⟩
  · next w rest hne heq =>
    rw [heq] at h
    have hw : w ≠ [] := by
      rintro rfl
      exact hne rfl
    split <;> exact ⟨h, hw⟩

theorem read_splits (logical : Bool) (c : Char) (r : Text) :
    Splits (read logical c r) (c :: r) := by
  unfold read
  split
  · exact ⟨by simp, by simp⟩
  · exact comparison_splits ..
  · exact operator_splits ..
  · split
    · next h => subst h; exact slash_splits r
    · split
      · next h => subst h; exact string_splits r
      · exact word_splits c r

/-- What is taken and what is left are the whole text. -/
theorem taken_append_rest (logical : Bool) (c : Char) (r : Text) :
    (read logical c r).taken ++ (read logical c r).rest = c :: r := (read_splits logical c r).1

/-- Something is taken. -/
theorem taken_ne_nil (logical : Bool) (c : Char) (r : Text) :
    (read logical c r).taken ≠ [] := (read_splits logical c r).2

theorem length_rest_le (logical : Bool) (c : Char) (r : Text) :
    (read logical c r).rest.length ≤ r.length := by
  have h := congrArg List.length (taken_append_rest logical c r)
  have hn := List.length_pos_iff.mpr (taken_ne_nil logical c r)
  simp only [List.length_append, List.length_cons] at h
  omega

end Lexed

end LoxLexer
