import LoxLexer.Proofs.Word

/-!
# Spellings and refusals

How the tokens of each kind are written in a source, and at which fronts of a
text there is no token.

    Spelling … k x w → Spelling … k x w, if less may follow    (Spelling.weaken)
    a lexeme is its spelling, or what is between two marks     (Spelling.form)
    Spelling … k x (c :: r) → Starts logical c                 (Spelling.exists_cons)
-/

namespace LoxLexer

/-! ## The grammar -/

/-- What ends a block comment. -/
def endMark : Text := ['*', '/']

/-- `Spelling logical final k x w`: a token of kind `k` with the lexeme `x` may be written `w`.
`final` says that nothing follows in the source; `logical` that doubled `&` and `|` are tokens. -/
inductive Spelling (logical : Bool) (final : Prop) : Kind → Text → Text → Prop
  | punctuation {c : Char} {k : Kind} : (c, k) ∈ Kind.punctuation → Spelling logical final k [c] [c]
  | single {c : Char} {k k' : Kind} :
      (c, k, k') ∈ Kind.comparisons → Spelling logical final k [c] [c]
  | double {c : Char} {k k' : Kind} :
      (c, k, k') ∈ Kind.comparisons → Spelling logical final k' [c, '='] [c, '=']
  | divide : Spelling logical final .divide ['/'] ['/']
  | operator {c : Char} {k : Kind} :
      logical = true → (c, k) ∈ Kind.logical → Spelling logical final k [c, c] [c, c]
  | word {k : Kind} {w : Text} : IsWord k w → Spelling logical final k w w
  | string {x : Text} : '"' ∉ x → Spelling logical final .string x ('"' :: (x ++ ['"']))
  | lineComment {b e : Text} :
      '\n' ∉ b → (e = ['\n'] ∨ final ∧ e = []) →
        Spelling logical final .comment (Lexed.trimReturn b) ('/' :: '/' :: (b ++ e))
  | blockComment {x : Text} :
      ¬ endMark <:+: x → Spelling logical final .comment x ('/' :: '*' :: (x ++ endMark))

/-- The characters with which a spelling or a word starts. -/
inductive Starts (logical : Bool) : Char → Prop
  | punctuation {c : Char} {k : Kind} : (c, k) ∈ Kind.punctuation → Starts logical c
  | comparison {c : Char} {k k' : Kind} : (c, k, k') ∈ Kind.comparisons → Starts logical c
  | operator {c : Char} {k : Kind} : logical = true → (c, k) ∈ Kind.logical → Starts logical c
  | slash : Starts logical '/'
  | quote : Starts logical '"'
  | word {c : Char} : isWordChar c = true → Starts logical c

/-- `Refusal logical cause w s`: no token is at the front of `w ++ s`, and an error takes `w`. -/
inductive Refusal (logical : Bool) : Cause → Text → Text → Prop
  | string {u : Text} : '"' ∉ u → Refusal logical .unterminatedString ('"' :: u) []
  | comment {u : Text} :
      ¬ endMark <:+: u → Refusal logical .unterminatedComment ('/' :: '*' :: u) []
  | operator {c : Char} {k : Kind} {s : Text} :
      logical = true → (c, k) ∈ Kind.logical → s.head? ≠ some c →
        Refusal logical (.unpairedOperator [c] (s.head?.map fun d => [d])) [c] s
  | word {w s : Text} :
      w ≠ [] → Joined w s → (spanWord s).1 = [] → (∀ k, ¬ IsWord k w) →
        Refusal logical (.invalidToken w) w s
  | character {c : Char} {s : Text} :
      ¬ Starts logical c → Refusal logical (.invalidToken [c]) [c] s

/-- What was read is right, as a token or as an error. -/
def Lexed.Explained (logical : Bool) (x : Lexed) : Prop :=
  match x.item with
  | .token k lexeme => Spelling logical (x.rest = []) k lexeme x.taken
  | .fault cause => Refusal logical cause x.taken x.rest

/-- The kinds whose lexemes stand in the source as they are. -/
def Kind.isPlain : Kind → Bool
  | .string | .comment | .endOfInput => false
  | _ => true

/-! ## Forms -/

theorem IsWord.isPlain {k : Kind} {w : Text} (h : IsWord k w) : k.isPlain = true := by
  have key : ∀ p ∈ Kind.keywords, p.2.isPlain = true := by decide
  cases h with
  | keyword h => exact key _ h
  | integer _ | float _ _ | identifier _ _ => rfl

/-- The ways in which a lexeme stands in a spelling. -/
theorem Spelling.form {logical : Bool} {final : Prop} {k : Kind} {x w : Text}
    (h : Spelling logical final k x w) :
    (k.isPlain = true ∧ w = x) ∨ (k = .string ∧ '"' ∉ x ∧ w = '"' :: (x ++ ['"'])) ∨
      (k = .comment ∧ ¬ endMark <:+: x ∧ w = '/' :: '*' :: (x ++ endMark)) ∨
      (k = .comment ∧ ∃ b e, '\n' ∉ b ∧ (e = ['\n'] ∨ final ∧ e = []) ∧
        x = Lexed.trimReturn b ∧ w = '/' :: '/' :: (b ++ e)) := by
  have hp : ∀ p ∈ Kind.punctuation, p.2.isPlain = true := by decide
  have hc : ∀ p ∈ Kind.comparisons, p.2.1.isPlain = true ∧ p.2.2.isPlain = true := by decide
  have hl : ∀ p ∈ Kind.logical, p.2.isPlain = true := by decide
  cases h with
  | punctuation h => exact Or.inl ⟨hp _ h, rfl⟩
  | single h => exact Or.inl ⟨(hc _ h).1, rfl⟩
  | double h => exact Or.inl ⟨(hc _ h).2, rfl⟩
  | divide => exact Or.inl ⟨rfl, rfl⟩
  | operator _ h => exact Or.inl ⟨hl _ h, rfl⟩
  | word h => exact Or.inl ⟨h.isPlain, rfl⟩
  | string h => exact Or.inr (Or.inl ⟨rfl, h, rfl⟩)
  | blockComment h => exact Or.inr (Or.inr (Or.inl ⟨rfl, h, rfl⟩))
  | @lineComment b e h he => exact Or.inr (Or.inr (Or.inr ⟨rfl, b, e, h, he, rfl, rfl⟩))

/-- Only a comment can depend on being the last thing in the source. -/
theorem Spelling.weaken {logical : Bool} {final final' : Prop} {k : Kind} {x w : Text}
    (h : Spelling logical final k x w) (hf : k = .comment → final → final') :
    Spelling logical final' k x w := by
  cases h with
  | punctuation h => exact .punctuation h
  | single h => exact .single h
  | double h => exact .double h
  | divide => exact .divide
  | operator hl h => exact .operator hl h
  | word h => exact .word h
  | string h => exact .string h
  | lineComment h he =>
    exact .lineComment h (he.imp_right fun ⟨hfinal, he⟩ => ⟨hf rfl hfinal, he⟩)
  | blockComment h => exact .blockComment h

theorem Spelling.kind_ne_endOfInput {logical : Bool} {final : Prop} {k : Kind} {x w : Text}
    (h : Spelling logical final k x w) : k ≠ .endOfInput := by
  rintro rfl
  rcases h.form with ⟨hk, -⟩ | ⟨hk, -⟩ | ⟨hk, -⟩ | ⟨hk, -⟩ <;> cases hk

/-! ## First characters -/

/-- A spelling is not empty. -/
theorem Spelling.exists_cons {logical : Bool} {final : Prop} {k : Kind} {x w : Text}
    (h : Spelling logical final k x w) : ∃ c r, w = c :: r ∧ Starts logical c := by
  cases h with
  | punctuation h => exact ⟨_, _, rfl, .punctuation h⟩
  | single h => exact ⟨_, _, rfl, .comparison h⟩
  | double h => exact ⟨_, _, rfl, .comparison h⟩
  | operator hl h => exact ⟨_, _, rfl, .operator hl h⟩
  | divide | lineComment _ _ | blockComment _ => exact ⟨_, _, rfl, .slash⟩
  | string _ => exact ⟨_, _, rfl, .quote⟩
  | word h =>
    obtain ⟨c, r, rfl, hc⟩ := h.exists_cons
    exact ⟨c, r, rfl, .word hc⟩

theorem not_isSpace_of_isWordChar {c : Char} (h : isWordChar c = true) : isSpace c = false := by
  rw [Bool.eq_false_iff]
  intro hs
  simp only [isSpace, Bool.or_eq_true, decide_eq_true_eq] at hs
  rcases hs with ((rfl | rfl) | rfl) | rfl <;> revert h <;> decide

theorem Starts.not_isSpace {logical : Bool} {c : Char} (h : Starts logical c) :
    isSpace c = false := by
  have hp : ∀ p ∈ Kind.punctuation, isSpace p.1 = false := by decide
  have hc : ∀ p ∈ Kind.comparisons, isSpace p.1 = false := by decide
  have hl : ∀ p ∈ Kind.logical, isSpace p.1 = false := by decide
  cases h with
  | punctuation h => exact hp _ h
  | comparison h => exact hc _ h
  | operator _ h => exact hl _ h
  | slash | quote => decide
  | word h => exact not_isSpace_of_isWordChar h

end LoxLexer
