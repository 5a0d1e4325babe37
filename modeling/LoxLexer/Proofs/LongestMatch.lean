import LoxLexer.Proofs.History

/-!
# The longest match

A token takes the longest part of the front that is a token text of any kind,
and that text is of its own kind and of no other.

    TokenText logical j w → TokenText logical k w → j = k            (kind_unique)
    no longer beginning of the front is a token text                  (next_longest_match)
-/

namespace LoxLexer

/-- `w` is how some token of kind `k` is written, where nothing has to follow. -/
def TokenText (logical : Bool) (k : Kind) (w : Text) : Prop := ∃ x, Spelling logical True k x w

/-- Alone in a source, a token text is read as a token of its kind. -/
theorem TokenText.exists_read {logical : Bool} {k : Kind} {w : Text} (h : TokenText logical k w) :
    ∃ c r x, w = c :: r ∧ Lexed.read logical c r = ⟨.token k x, w, []⟩ := by
  obtain ⟨x, hx⟩ := h
  obtain ⟨c, r, hw, hread⟩ := read_of_spelling (s := []) (hx.weaken fun _ _ => rfl) (by simp)
  rw [List.append_nil] at hw
  exact ⟨c, r, x, hw, hread⟩

/-- The kinds have different texts. -/
theorem TokenText.kind_unique {logical : Bool} {j k : Kind} {w : Text}
    (hj : TokenText logical j w) (hk : TokenText logical k w) : j = k := by
  obtain ⟨c, r, x, rfl, hx⟩ := hj.exists_read
  obtain ⟨d, s, y, hw, hy⟩ := hk.exists_read
  cases hw
  rw [hx] at hy
  simp only [Lexed.mk.injEq, Item.token.injEq] at hy
  exact hy.1.1

namespace Lexer

/-- A token other than the end token is spelt as what the call took. -/
theorem spelling_taken {l : Lexer} {t : Token} (h : l.next.1 = .token t)
    (hk : t.kind ≠ .endOfInput) :
    Spelling l.logical (l.next.2.cursor.rest = []) t.kind t.lexeme l.taken := by
  rcases l.next_cases with ⟨-, hn⟩ | ⟨-, ⟨k, x, he, hs⟩ | ⟨cause, he, -⟩⟩
  · rw [hn] at h
    cases h
    exact absurd rfl hk
  · rw [he] at h
    cases h
    exact hs
  · rw [he] at h
    cases h

/-- No token text at the front reaches farther than the call. -/
theorem length_le_length_taken {l : Lexer} {k : Kind} {v : Text} (h : TokenText l.logical k v)
    (hv : v <+: l.front) : v.length ≤ l.taken.length := by
  obtain ⟨x, hx⟩ := h
  obtain ⟨s, hs⟩ := hv
  cases hf : l.front with
  | nil =>
    rw [hf, List.append_eq_nil_iff] at hs
    simp [hs.1]
  | cons c r =>
    rw [taken, hf]
    exact length_le_taken hx (hf.symm.trans hs.symm)

/-- What a token takes is a text of its kind alone, and no longer beginning is a text of any. -/
theorem longest_of_token {l : Lexer} {t : Token} (h : l.next.1 = .token t)
    (hk : t.kind ≠ .endOfInput) :
    (∀ k, TokenText l.logical k l.taken ↔ k = t.kind) ∧
      ∀ v, v <+: l.front → l.taken.length < v.length → ∀ k, ¬ TokenText l.logical k v := by
  have htext : TokenText l.logical t.kind l.taken :=
    ⟨t.lexeme, (spelling_taken h hk).weaken fun _ _ => trivial⟩
  refine ⟨fun k => ⟨fun hw => hw.kind_unique htext, ?_⟩, ?_⟩
  · rintro rfl
    exact htext
  · intro v hv hlt k hv'
    have := length_le_length_taken hv' hv
    omega

/-- **The longest match.**  The text that a token takes behind the spaces is a token text of its
kind and of no other kind, and no longer beginning of what was left is a token text at all. -/
theorem next_longest_match (l l' : Lexer) (t : Token) (h : l.next = (.token t, l'))
    (hk : t.kind ≠ .endOfInput) :
    let front := l.cursor.rest.dropWhile isSpace
    ∃ w, front = w ++ l'.cursor.rest ∧ (∀ k, TokenText l.logical k w ↔ k = t.kind) ∧
      ∀ v, v <+: front → w.length < v.length → ∀ k, ¬ TokenText l.logical k v := by
  intro front
  obtain ⟨hkind, hlongest⟩ := longest_of_token (by rw [h]) hk
  refine ⟨l.taken, ?_, hkind, hlongest⟩
  have hfront := l.front_eq_next
  rw [h] at hfront
  exact hfront

/-- In front of `1.50*/` the number is taken whole, and nothing behind it. -/
theorem next_longest_match_float :
    let l := start "a.lox".toList 1 true "\t1.50*/".toList
    l.next = (.token ⟨.float, "1.50".toList, 1⟩, l.next.2) ∧ l.next.2.cursor.rest = "*/".toList ∧
      ∃ w, l.cursor.rest.dropWhile isSpace = w ++ l.next.2.cursor.rest ∧
        (∀ k, TokenText true k w ↔ k = .float) ∧
        ∀ v, v <+: l.cursor.rest.dropWhile isSpace → w.length < v.length →
          ∀ k, ¬ TokenText true k v := by
  intro l
  have hnext : l.next = (.token ⟨.float, "1.50".toList, 1⟩, l.next.2) := by decide +kernel
  exact ⟨hnext, by decide +kernel, next_longest_match l _ _ hnext (by decide)⟩

end Lexer

end LoxLexer
