import LoxLexer.Proofs.History

/-!
# Source forms

Every call of `next` takes a run of spaces and then the source form of its
event, which is its lexeme between the marks of its kind, or the text that an
error is about.  So no character is lost, taken twice or moved.

    SourceForm (l.next.2.cursor.rest = []) l.next.1 l.taken          (sourceForm_next)
    l.next.1.isEnd ↔ only spaces are left                            (isEnd_next_iff)
-/

namespace LoxLexer

/-- Whether an event is the end token. -/
def Event.isEnd : Event → Bool
  | .token t => t.kind = .endOfInput
  | .error _ => false

/-- `SourceForm final e w`: the event `e` stands in the source as `w`.  `final` says that nothing
follows. -/
inductive SourceForm (final : Prop) : Event → Text → Prop
  | string {x : Text} {line : Int} :
      SourceForm final (.token ⟨.string, x, line⟩) ('"' :: (x ++ ['"']))
  | blockComment {x : Text} {line : Int} :
      SourceForm final (.token ⟨.comment, x, line⟩) ('/' :: '*' :: (x ++ ['*', '/']))
  | lineComment {x e : Text} {line : Int} :
      (e = ['\n'] ∨ e = ['\r', '\n'] ∨ final ∧ (e = [] ∨ e = ['\r'])) →
        SourceForm final (.token ⟨.comment, x, line⟩) ('/' :: '/' :: (x ++ e))
  | lexeme {k : Kind} {x : Text} {line : Int} :
      k.isPlain = true → SourceForm final (.token ⟨k, x, line⟩) x
  | invalidToken {w : Text} {location : Option Location} {sourceLine : Option Text} :
      SourceForm final (.error ⟨.invalidToken w, location, sourceLine⟩) w
  | unpairedOperator {w : Text} {found : Option Text} {location : Option Location}
      {sourceLine : Option Text} :
      SourceForm final (.error ⟨.unpairedOperator w found, location, sourceLine⟩) w
  | unterminatedString {u : Text} {location : Option Location} {sourceLine : Option Text} :
      final → SourceForm final (.error ⟨.unterminatedString, location, sourceLine⟩) ('"' :: u)
  | unterminatedComment {u : Text} {location : Option Location} {sourceLine : Option Text} :
      final →
        SourceForm final (.error ⟨.unterminatedComment, location, sourceLine⟩) ('/' :: '*' :: u)
  | endOfInput {line : Int} : SourceForm final (.token ⟨.endOfInput, [], line⟩) []

/-! ## One call -/

theorem trimReturn_append_return (x : Text) : Lexed.trimReturn (x ++ ['\r']) = x := by
  simp [Lexed.trimReturn]

/-- At most one carriage return is left out of a comment. -/
theorem trimReturn_append (b : Text) :
    b = Lexed.trimReturn b ∨ b = Lexed.trimReturn b ++ ['\r'] := by
  unfold Lexed.trimReturn
  split
  · next h =>
    have hne : b ≠ [] := by
      rintro rfl
      cases h
    have hlast : b.getLast hne = '\r' := by
      rw [List.getLast?_eq_some_getLast hne] at h
      exact Option.some.inj h
    have := List.dropLast_concat_getLast hne
    rw [hlast] at this
    exact Or.inr this.symm
  · exact Or.inl rfl

theorem Spelling.sourceForm {logical : Bool} {final : Prop} {k : Kind} {x w : Text}
    (h : Spelling logical final k x w) (line : Int) :
    SourceForm final (.token ⟨k, x, line⟩) w := by
  rcases h.form with ⟨hk, rfl⟩ | ⟨rfl, -, rfl⟩ | ⟨rfl, -, rfl⟩ | ⟨rfl, b, e, -, he, rfl, rfl⟩
  · exact .lexeme hk
  · exact .string
  · exact .blockComment
  · -- a carriage return that is no part of the lexeme belongs to the end of the line
    have hform : ∃ e', b ++ e = Lexed.trimReturn b ++ e' ∧
        (e' = ['\n'] ∨ e' = ['\r', '\n'] ∨ final ∧ (e' = [] ∨ e' = ['\r'])) := by
      rcases trimReturn_append b with hb | hb
      · refine ⟨e, by rw [← hb], ?_⟩
        rcases he with rfl | ⟨hf, rfl⟩
        · exact Or.inl rfl
        · exact Or.inr (Or.inr ⟨hf, Or.inl rfl⟩)
      · refine ⟨'\r' :: e, ?_, ?_⟩
        · conv => lhs; rw [hb]
          simp
        · rcases he with rfl | ⟨hf, rfl⟩
          · exact Or.inr (Or.inl rfl)
          · exact Or.inr (Or.inr ⟨hf, Or.inr rfl⟩)
    obtain ⟨e', he', hcases⟩ := hform
    rw [he']
    exact .lineComment hcases

namespace Lexer

/-- The event stands in the source as what the call takes. -/
theorem sourceForm_next (l : Lexer) : SourceForm (l.next.2.cursor.rest = []) l.next.1 l.taken := by
  rcases l.next_cases with ⟨hf, hn⟩ | ⟨-, ⟨k, x, he, hs⟩ | ⟨cause, he, hr⟩⟩
  · rw [hn, taken, hf]
    exact .endOfInput
  · rw [he]
    exact hs.sourceForm _
  · rw [he]
    generalize l.taken = w, l.next.2.cursor.rest = s at hr ⊢
    cases hr with
    | string _ => exact .unterminatedString rfl
    | comment _ => exact .unterminatedComment rfl
    | operator _ _ _ => exact .unpairedOperator
    | word _ _ _ _ => exact .invalidToken
    | character _ => exact .invalidToken

/-- The end token comes when nothing but spaces is left. -/
theorem isEnd_next_iff (l : Lexer) : l.next.1.isEnd = true ↔ l.front = [] := by
  rcases l.next_cases with ⟨hf, hn⟩ | ⟨hf, ⟨k, x, he, hs⟩ | ⟨cause, he, -⟩⟩
  · simp [hn, hf, endToken, Event.isEnd]
  · simp [he, hf, Event.isEnd, hs.kind_ne_endOfInput]
  · simp [he, hf, Event.isEnd, errorHere]

theorem place_le_succ (l : Lexer) (n : Nat) : l.place n ≤ l.place (n + 1) := by
  have := (l.after n).position_next
  simp only [place, after]
  omega

end Lexer

end LoxLexer
