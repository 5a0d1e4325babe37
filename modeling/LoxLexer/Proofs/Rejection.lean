import LoxLexer.Proofs.History
import LoxLexer.Proofs.Lookahead

/-!
# Rejections

Where a source holds no token: a string or a block comment that is not closed, a
logical operator that is not doubled, a word of no kind, and a character that
starts nothing.  A call fails in front of these and nowhere else, with the error
that belongs to them, and takes what belongs to them.

    spanWord t = (w, s) ↔ t = w ++ s ∧ LongestWord w s                  (spanWord_eq_iff)
    Rejected logical cause w s → `w ++ s` is read as the fault, taking `w`   (read_of_rejected)
    a fault that is read is rejected                                    (rejected_of_read)
    a call fails in front of what is rejected                           (next_of_rejected)
    and nowhere else                                                    (rejected_of_next)
-/

namespace LoxLexer

/-! ## The rejected fronts -/

/-- `w` is the longest beginning of `w ++ s` that consists of letters and digits of any script, `_`,
and points in front of an ASCII digit. -/
def LongestWord (w s : Text) : Prop :=
  Joined w s ∧ ∀ v u, v ++ u = w ++ s → Joined v u → v.length ≤ w.length

/-- The characters that start a token of their own, whatever the settings. -/
def signs : Text :=
  ['(', ')', '\x7b', '\x7d', ',', '.', '-', '+', ';', '*', '!', '=', '<', '>', '/', '"']

/-- `Rejected logical cause w s`: no token is at the front of `w ++ s`, for this cause, and the
error takes `w`. -/
inductive Rejected (logical : Bool) : Cause → Text → Text → Prop
  | string {u : Text} : '"' ∉ u → Rejected logical .unterminatedString ('"' :: u) []
  | comment {u : Text} :
      ¬ ['*', '/'] <:+: u → Rejected logical .unterminatedComment ('/' :: '*' :: u) []
  | operator {c : Char} {s : Text} :
      logical = true → c = '&' ∨ c = '|' → s.head? ≠ some c →
        Rejected logical (.unpairedOperator [c] (s.head?.map fun d => [d])) [c] s
  | word {c : Char} {w s : Text} :
      Text.isAlphanumeric c = true ∨ c = '_' → LongestWord (c :: w) s →
        (∀ k, ¬ IsWord k (c :: w)) → Rejected logical (.invalidToken (c :: w)) (c :: w) s
  | character {c : Char} {s : Text} :
      ¬ (Text.isAlphanumeric c = true ∨ c = '_') → c ∉ signs →
        ¬ (logical = true ∧ (c = '&' ∨ c = '|')) →
        Rejected logical (.invalidToken [c]) [c] s

/-! ## Words and first characters -/

/-- A word is read as far as it can reach. -/
theorem spanWord_eq_iff {t w s : Text} : spanWord t = (w, s) ↔ t = w ++ s ∧ LongestWord w s := by
  constructor
  · intro h
    have happend := spanWord_append t
    have hjoined := joined_spanWord t
    rw [h] at happend hjoined
    refine ⟨happend.symm, hjoined, fun v u hvu hv => ?_⟩
    have hspan := spanWord_of_joined hv
    rw [hvu, happend, h] at hspan
    obtain ⟨hw, -⟩ := Prod.mk.inj hspan
    rw [hw, List.length_append]
    omega
  · rintro ⟨rfl, hjoined, hlongest⟩
    refine spanWord_of_rest_nil hjoined ?_
    -- what a longer word would take beyond `w` is nothing
    have hall := joined_spanWord (w ++ s)
    have happend := spanWord_append (w ++ s)
    rw [spanWord_of_joined hjoined] at hall happend
    have hle := hlongest _ _ happend hall
    rw [List.length_append] at hle
    exact List.length_eq_zero_iff.mp (by omega)

theorem isWordChar_iff {c : Char} :
    isWordChar c = true ↔ Text.isAlphanumeric c = true ∨ c = '_' := by
  simp [isWordChar]

theorem exists_mem_logical_iff {c : Char} : (∃ k, (c, k) ∈ Kind.logical) ↔ c = '&' ∨ c = '|' := by
  simp [Kind.logical, exists_or]

/-- The characters that start something: signs, logical operators where they are tokens, and the
characters of words. -/
theorem starts_iff {logical : Bool} {c : Char} :
    Starts logical c ↔
      c ∈ signs ∨ (logical = true ∧ (c = '&' ∨ c = '|')) ∨ isWordChar c = true := by
  have hp : ∀ p ∈ Kind.punctuation, p.1 ∈ signs := by decide
  have hc : ∀ p ∈ Kind.comparisons, p.1 ∈ signs := by decide
  have hs : signs ⊆ Kind.punctuation.map (·.1) ++ (Kind.comparisons.map (·.1) ++ ['/', '"']) := by
    decide
  constructor
  · intro h
    cases h with
    | punctuation h => exact Or.inl (hp _ h)
    | comparison h => exact Or.inl (hc _ h)
    | operator hl h => exact Or.inr (Or.inl ⟨hl, exists_mem_logical_iff.mp ⟨_, h⟩⟩)
    | slash => exact Or.inl (by decide)
    | quote => exact Or.inl (by decide)
    | word h => exact Or.inr (Or.inr h)
  · rintro (h | ⟨hl, h⟩ | h)
    · rcases List.mem_append.mp (hs h) with h | h
      · obtain ⟨⟨_, k⟩, hmem, rfl⟩ := List.mem_map.mp h
        exact .punctuation hmem
      rcases List.mem_append.mp h with h | h
      · obtain ⟨⟨_, k, k'⟩, hmem, rfl⟩ := List.mem_map.mp h
        exact .comparison hmem
      · rcases List.mem_cons.mp h with rfl | h
        · exact .slash
        · rw [List.mem_singleton.mp h]
          exact .quote
    · obtain ⟨k, hk⟩ := exists_mem_logical_iff.mpr h
      exact .operator hl hk
    · exact .word h

/-! ## Rejected fronts are read as faults -/

namespace Lexed

/-- A character that starts nothing is left to the words. -/
theorem read_of_not_starts {logical : Bool} {c : Char} (h : ¬ Starts logical c) (r : Text) :
    read logical c r = word c r := by
  have hp : Kind.punctuation.lookup c = none := by
    cases hl : Kind.punctuation.lookup c with
    | none => rfl
    | some k => exact absurd (.punctuation (lookup_punctuation_iff.mp hl)) h
  have hc : Kind.comparisons.lookup c = none := by
    cases hl : Kind.comparisons.lookup c with
    | none => rfl
    | some k => exact absurd (.comparison (lookup_comparisons_iff.mp hl)) h
  have hslash : c ≠ '/' := by
    rintro rfl
    exact h .slash
  have hquote : c ≠ '"' := by
    rintro rfl
    exact h .quote
  have hl : ¬ ∃ k, logical = true ∧ Kind.logical.lookup c = some k := by
    rintro ⟨k, hl, hk⟩
    exact h (.operator hl (lookup_logical_iff.mp hk))
  rw [read_of_no_table hp hc hl, if_neg hslash, if_neg hquote]

/-- A word that is of no kind is refused as a whole. -/
theorem word_of_longestWord {c : Char} {w s : Text} (h : LongestWord (c :: w) s)
    (hk : ∀ k, ¬ IsWord k (c :: w)) :
    word c (w ++ s) = ⟨.fault (.invalidToken (c :: w)), c :: w, s⟩ := by
  have hspan : spanWord (c :: (w ++ s)) = (c :: w, s) := spanWord_eq_iff.mpr ⟨rfl, h⟩
  have hnone : Kind.ofWord? (c :: w) = none := by
    cases hw : Kind.ofWord? (c :: w) with
    | none => rfl
    | some k => exact absurd (ofWord?_eq_some_iff.mp hw) (hk k)
  simp only [word, hspan, hnone]

theorem read_of_rejected {logical : Bool} {cause : Cause} {w s : Text}
    (h : Rejected logical cause w s) :
    ∃ c r, w ++ s = c :: r ∧ read logical c r = ⟨.fault cause, w, s⟩ := by
  cases h with
  | @string u h =>
    refine ⟨'"', u, by simp, ?_⟩
    show Lexed.string u = _
    exact string_of_unclosed h
  | @comment u h =>
    refine ⟨'/', '*' :: u, by simp, ?_⟩
    show Lexed.blockComment u = _
    exact blockComment_of_unclosed h
  | @operator c s hl hc hs =>
    obtain ⟨k, hk⟩ := exists_mem_logical_iff.mpr hc
    refine ⟨c, s, rfl, ?_⟩
    rw [hl, read_of_operator _ hk]
    exact operator_of_unpaired k hs
  | @word c w s hc hw hk =>
    refine ⟨c, w ++ s, rfl, ?_⟩
    rw [read_of_isWordChar _ _ (isWordChar_iff.mpr hc)]
    exact word_of_longestWord hw hk
  | @character c s hword hsign hlogical =>
    have hstarts : ¬ Starts logical c := by
      rw [starts_iff, isWordChar_iff]
      rintro (h | h | h)
      · exact hsign h
      · exact hlogical h
      · exact hword h
    refine ⟨c, s, rfl, ?_⟩
    rw [read_of_not_starts hstarts]
    have hchar : isWordChar c = false := by
      rw [Bool.eq_false_iff, ne_eq, isWordChar_iff]
      exact hword
    have hdot : c ≠ '.' := by
      rintro rfl
      exact hsign (by decide)
    exact word_of_not_joins (by simp [joinsWord, hchar, hdot])

/-! ## Faults are rejected fronts -/

theorem rejected_of_read {logical : Bool} {c : Char} {r : Text} {cause : Cause} {w s : Text}
    (h : read logical c r = ⟨.fault cause, w, s⟩) : Rejected logical cause w s := by
  have hrefusal : Refusal logical cause w s := by
    have := read_explained logical c r
    rw [h] at this
    exact this
  have hsplit : w ++ s = c :: r := by
    have := taken_append_rest logical c r
    rw [h] at this
    exact this
  cases hrefusal with
  | string hu => exact .string hu
  | comment hu => exact .comment hu
  | operator hl hk hs => exact .operator hl (exists_mem_logical_iff.mp ⟨_, hk⟩) hs
  | word hne hjoined hrest hk =>
    obtain ⟨d, v, rfl⟩ := List.exists_cons_of_ne_nil hne
    obtain ⟨rfl, -⟩ := List.cons.inj hsplit
    have hword : isWordChar d = true := by
      -- the only other character that joins a word is a point, and a point is a token
      cases hd : isWordChar d with
      | true => rfl
      | false =>
        have hjoins : joinsWord d (v ++ s) = true := hjoined.1
        obtain ⟨rfl, -⟩ : d = '.' ∧ _ := by
          simpa [joinsWord, hd] using hjoins
        have hdot : ('.', Kind.dot) ∈ Kind.punctuation := by decide
        rw [read_of_punctuation logical r hdot] at h
        cases h
    have hlongest := (spanWord_eq_iff.mp (spanWord_of_rest_nil hjoined hrest)).2
    exact .word (isWordChar_iff.mp hword) hlongest hk
  | character hstarts =>
    rw [starts_iff, isWordChar_iff] at hstarts
    simp only [not_or] at hstarts
    exact .character (by simpa using hstarts.2.2) hstarts.1 hstarts.2.1

end Lexed

/-! ## Calls -/

namespace Lexer

/-- Where a call fails, the front is rejected for the cause that it gives. -/
theorem rejected_of_next {l : Lexer} {d : Diagnostic} (h : l.next.1 = .error d) :
    Rejected l.logical d.cause l.taken l.next.2.cursor.rest := by
  cases hf : l.front with
  | nil =>
    rw [(next_of_front_nil hf).2] at h
    cases h
  | cons c r =>
    obtain ⟨-, hevent, hnext⟩ := next_of_front_cons hf
    rw [hevent] at h
    rw [hnext, taken, hf]
    show Rejected _ _ (Lexed.read l.logical c r).taken (Lexed.read l.logical c r).rest
    cases hread : Lexed.read l.logical c r with
    | mk item w s =>
      rw [hread] at h
      cases item with
      | token k x => cases h
      | fault cause =>
        have hcause : cause = d.cause := by
          cases cause <;> cases h <;> rfl
        rw [← hcause]
        exact Lexed.rejected_of_read hread

/-- In front of what is rejected, a call fails for that cause, takes it and leaves the rest. -/
theorem next_of_rejected {l : Lexer} {cause : Cause} {w s : Text} (hfront : l.front = w ++ s)
    (h : Rejected l.logical cause w s) :
    (∃ location sourceLine, l.next.1 = .error ⟨cause, location, sourceLine⟩) ∧ l.taken = w ∧
      l.next.2.cursor.rest = s := by
  obtain ⟨c, r, hcr, hread⟩ := Lexed.read_of_rejected h
  have hf : l.front = c :: r := hfront.trans hcr
  obtain ⟨-, hevent, hnext⟩ := next_of_front_cons hf
  rw [hread] at hevent hnext
  refine ⟨?_, by simp only [taken, hf, hread], by rw [hnext]; rfl⟩
  rw [hevent]
  cases cause <;> exact ⟨_, _, rfl⟩

/-- A point belongs to the word that is refused only where a digit follows it. -/
example : (start [] 1 true " a.5.+".toList).next =
    (.error ⟨.invalidToken "a.5".toList, some ⟨[], 1⟩, some " a.5.+".toList⟩,
      ⟨[], ⟨"5.a ".toList, ".+".toList⟩, 1, true, false⟩) := by decide +kernel

end Lexer

end LoxLexer
