import LoxLexer.Proofs.Reading

/-!
# Lookahead

What is read depends on the text that is taken and on little of what follows:
on the next character, and on whether the one behind that is an ASCII digit.
Where the rest begins alike, or a line feed is put behind a rest that is not
empty, the same is read.

    its first character says as what a text is read                              (read_cases)
    outlook s' = outlook x.rest → in front of `s'` is read what x is             (read_of_outlook)
    a token at the end of a text is read in front of a line feed, too            (read_lineFeed)
-/

namespace LoxLexer

/-- What can be seen of the text that follows: its first character, and whether an ASCII digit is
behind it. -/
def outlook (s : Text) : Option Char × Bool := (s.head?, (s.drop 1).head?.any Char.isDigit)

section
variable {s s' : Text}

theorem head?_eq_of_outlook (h : outlook s' = outlook s) : s'.head? = s.head? :=
  congrArg Prod.fst h

theorem eq_nil_of_outlook (h : outlook s' = outlook []) : s' = [] :=
  List.head?_eq_none_iff.mp (head?_eq_of_outlook h)

theorem exists_cons_of_outlook {d : Char} {t : Text} (h : outlook s' = outlook (d :: t)) :
    ∃ t', s' = d :: t' ∧ t'.head?.any Char.isDigit = t.head?.any Char.isDigit := by
  obtain ⟨t', rfl⟩ := List.head?_eq_some_iff.mp (head?_eq_of_outlook h)
  exact ⟨t', rfl, congrArg Prod.snd h⟩

/-- A line feed behind a text that is not empty cannot be seen from its front. -/
theorem outlook_append_lineFeed (hs : s ≠ []) (t : Text) :
    outlook (s ++ '\n' :: t) = outlook s := by
  obtain ⟨d, r, rfl⟩ := List.exists_cons_of_ne_nil hs
  cases r with
  | nil => rfl
  | cons e r => rfl

end

/-! ## Words -/

theorem joinsWord_congr {c : Char} {r r' : Text}
    (h : r'.head?.any Char.isDigit = r.head?.any Char.isDigit) :
    joinsWord c r' = joinsWord c r := by
  rw [joinsWord, joinsWord, h]

theorem Joined.congr {w s s' : Text} (h : Joined w s) (hs : s'.head? = s.head?) : Joined w s' := by
  induction w with
  | nil => trivial
  | cons c w ih =>
    refine ⟨?_, ih h.2⟩
    have hhead : (w ++ s').head? = (w ++ s).head? := by
      rw [List.head?_append, List.head?_append, hs]
    exact (joinsWord_congr (by rw [hhead])).trans h.1

/-- Where the rest begins alike, a word ends alike. -/
theorem spanWord_nil_of_outlook {s s' : Text} (h : (spanWord s).1 = [])
    (hs : outlook s' = outlook s) : (spanWord s').1 = [] := by
  cases s with
  | nil =>
    rw [eq_nil_of_outlook hs]
    rfl
  | cons d t =>
    obtain ⟨t', rfl, hdigit⟩ := exists_cons_of_outlook hs
    cases hj : joinsWord d t with
    | true =>
      rw [spanWord_cons_of_joins hj] at h
      cases h
    | false => rw [spanWord_cons_of_not_joins ((joinsWord_congr hdigit).trans hj)]

/-- A word ends where nothing joins it any more. -/
theorem spanWord_of_rest_nil {w s : Text} (hw : Joined w s) (hs : (spanWord s).1 = []) :
    spanWord (w ++ s) = (w, s) := by
  have hrest := spanWord_append s
  rw [hs, List.nil_append] at hrest
  rw [spanWord_of_joined hw, hs, hrest, List.append_nil]

/-! ## Readings by their first characters -/

namespace Lexed

theorem comparison_of_head?_ne (k k' : Kind) (c : Char) {r : Text} (h : r.head? ≠ some '=') :
    comparison k k' c r = ⟨.token k [c], [c], r⟩ := by
  unfold comparison
  split
  · exact absurd rfl h
  · rfl

theorem slash_of_head?_ne {r : Text} (hline : r.head? ≠ some '/') (hblock : r.head? ≠ some '*') :
    slash r = ⟨.token .divide ['/'], ['/'], r⟩ := by
  unfold slash
  split
  · exact absurd rfl hline
  · exact absurd rfl hblock
  · rfl

theorem operator_of_unpaired (k : Kind) {c : Char} {s : Text} (h : s.head? ≠ some c) :
    operator k c s = ⟨.fault (.unpairedOperator [c] (s.head?.map fun d => [d])), [c], s⟩ := by
  cases s with
  | nil => rfl
  | cons d s =>
    have hd : d ≠ c := fun hd => h (by rw [hd]; rfl)
    rw [operator, if_neg hd]
    rfl

theorem string_of_unclosed {u : Text} (h : '"' ∉ u) :
    string u = ⟨.fault .unterminatedString, '"' :: u, []⟩ := by
  simp [string, takeWhile_bne_self h, dropWhile_bne_self h]

theorem blockComment_of_unclosed {u : Text} (h : ¬ endMark <:+: u) :
    blockComment u = ⟨.fault .unterminatedComment, '/' :: '*' :: u, []⟩ := by
  rw [blockComment, untilClose_eq_none_iff.mpr h]

/-- A character that starts no word is refused alone. -/
theorem word_of_not_joins {c : Char} {s : Text} (h : joinsWord c s = false) :
    word c s = ⟨.fault (.invalidToken [c]), [c], s⟩ := by
  simp only [word, spanWord_cons_of_not_joins h]

/-- What a character that is in no table starts. -/
theorem read_of_no_table {logical : Bool} {c : Char} (hp : Kind.punctuation.lookup c = none)
    (hc : Kind.comparisons.lookup c = none)
    (hl : ¬ ∃ k, logical = true ∧ Kind.logical.lookup c = some k) (r : Text) :
    read logical c r = if c = '/' then slash r else if c = '"' then string r else word c r := by
  unfold read
  rw [hp, hc]
  split
  · next h => cases h
  · next h => cases h
  · next k _ _ hk => exact absurd ⟨k, rfl, hk⟩ hl
  · rfl

/-! ## Each kind of reading -/

section
variable {c : Char} {r r' s' : Text}

theorem comparison_of_outlook {k k' : Kind} (hs : outlook s' = outlook (comparison k k' c r).rest)
    (hr : c :: r' = (comparison k k' c r).taken ++ s') :
    comparison k k' c r' = { comparison k k' c r with rest := s' } := by
  by_cases h : r.head? = some '='
  · obtain ⟨t, rfl⟩ := List.head?_eq_some_iff.mp h
    cases hr
    rfl
  · rw [comparison_of_head?_ne _ _ _ h] at hs hr ⊢
    cases hr
    rw [← head?_eq_of_outlook hs] at h
    exact comparison_of_head?_ne _ _ _ h

theorem operator_of_outlook {k : Kind} (hs : outlook s' = outlook (operator k c r).rest)
    (hr : c :: r' = (operator k c r).taken ++ s') :
    operator k c r' = { operator k c r with rest := s' } := by
  by_cases h : r.head? = some c
  · obtain ⟨t, rfl⟩ := List.head?_eq_some_iff.mp h
    simp only [operator, if_true] at hr ⊢
    cases hr
    exact if_pos rfl
  · rw [operator_of_unpaired k h] at hs hr ⊢
    cases hr
    rw [← head?_eq_of_outlook hs] at h ⊢
    exact operator_of_unpaired k h

theorem string_of_outlook (hs : outlook s' = outlook (string r).rest)
    (hr : '"' :: r' = (string r).taken ++ s') : string r' = { string r with rest := s' } := by
  by_cases h : '"' ∈ r
  · obtain ⟨x, t, rfl, hx⟩ := List.eq_append_cons_of_mem h
    rw [string_of_not_mem hx] at hr ⊢
    simp only [List.cons_append, List.append_assoc, List.nil_append, List.cons.injEq,
      true_and] at hr
    rw [hr, string_of_not_mem hx]
  · rw [string_of_unclosed h] at hs hr ⊢
    obtain rfl := eq_nil_of_outlook hs
    rw [List.append_nil] at hr
    rw [(List.cons.inj hr).2, string_of_unclosed h]

theorem lineComment_of_outlook (hs : outlook s' = outlook (lineComment r).rest)
    (hr : '/' :: '/' :: r' = (lineComment r).taken ++ s') :
    lineComment r' = { lineComment r with rest := s' } := by
  by_cases h : '\n' ∈ r
  · obtain ⟨b, t, rfl, hb⟩ := List.eq_append_cons_of_mem h
    rw [lineComment_of_lineFeed hb] at hr ⊢
    simp only [List.cons_append, List.append_assoc, List.nil_append, List.cons.injEq,
      true_and] at hr
    rw [hr, lineComment_of_lineFeed hb]
  · rw [lineComment_of_not_mem h] at hs hr ⊢
    obtain rfl := eq_nil_of_outlook hs
    simp only [List.append_nil, List.cons.injEq, true_and] at hr
    rw [hr, lineComment_of_not_mem h]

theorem blockComment_of_outlook (hs : outlook s' = outlook (blockComment r).rest)
    (hr : '/' :: '*' :: r' = (blockComment r).taken ++ s') :
    blockComment r' = { blockComment r with rest := s' } := by
  cases h : untilClose r with
  | some p =>
    obtain ⟨x, t⟩ := p
    obtain ⟨rfl, hx⟩ := untilClose_eq_some_iff.mp h
    rw [blockComment_of_closed hx] at hr ⊢
    simp only [List.cons_append, List.append_assoc, List.cons.injEq, true_and] at hr
    rw [hr, blockComment_of_closed hx]
  | none =>
    have hx := untilClose_eq_none_iff.mp h
    rw [blockComment_of_unclosed hx] at hs hr ⊢
    obtain rfl := eq_nil_of_outlook hs
    simp only [List.append_nil, List.cons.injEq, true_and] at hr
    rw [hr, blockComment_of_unclosed hx]

theorem slash_of_outlook (hs : outlook s' = outlook (slash r).rest)
    (hr : '/' :: r' = (slash r).taken ++ s') : slash r' = { slash r with rest := s' } := by
  by_cases hline : r.head? = some '/'
  · obtain ⟨t, rfl⟩ := List.head?_eq_some_iff.mp hline
    obtain ⟨t', rfl⟩ : ∃ t', r' = '/' :: t' := ⟨_, (List.cons.inj hr).2⟩
    exact lineComment_of_outlook hs hr
  · by_cases hblock : r.head? = some '*'
    · obtain ⟨t, rfl⟩ := List.head?_eq_some_iff.mp hblock
      have htaken : ∃ u, (blockComment t).taken = '/' :: '*' :: u := by
        unfold blockComment
        split <;> exact ⟨_, rfl⟩
      obtain ⟨u, hu⟩ := htaken
      obtain ⟨t', rfl⟩ : ∃ t', r' = '*' :: t' := by
        have hr' : '/' :: r' = (blockComment t).taken ++ s' := hr
        rw [hu] at hr'
        exact ⟨_, (List.cons.inj hr').2⟩
      exact blockComment_of_outlook hs hr
    · rw [slash_of_head?_ne hline hblock] at hs hr ⊢
      cases hr
      rw [← head?_eq_of_outlook hs] at hline hblock
      exact slash_of_head?_ne hline hblock

theorem word_of_outlook (hs : outlook s' = outlook (word c r).rest)
    (hr : c :: r' = (word c r).taken ++ s') : word c r' = { word c r with rest := s' } := by
  cases hspan : spanWord (c :: r) with
  | mk w s =>
    have happend := spanWord_append (c :: r)
    have hjoined := joined_spanWord (c :: r)
    have hend := spanWord_rest (c :: r)
    rw [hspan] at happend hjoined hend
    cases w with
    | nil =>
      have hc : joinsWord c r = false := by
        cases hj : joinsWord c r with
        | false => rfl
        | true =>
          rw [spanWord_cons_of_joins hj] at hspan
          cases hspan
      rw [word_of_not_joins hc] at hs hr ⊢
      obtain ⟨-, rfl⟩ := List.cons.inj hr
      exact word_of_not_joins ((joinsWord_congr (by rw [head?_eq_of_outlook hs])).trans hc)
    | cons d w =>
      have hfinal : (word c r).taken = d :: w ∧ (word c r).rest = s := by
        simp only [word, hspan]
        split <;> exact ⟨rfl, rfl⟩
      rw [hfinal.1] at hr
      rw [hfinal.2] at hs
      have hspan' : spanWord (c :: r') = (d :: w, s') := by
        rw [hr]
        exact spanWord_of_rest_nil (hjoined.congr (head?_eq_of_outlook hs))
          (spanWord_nil_of_outlook hend hs)
      simp only [word, hspan, hspan']
      split <;> rfl

end

/-! ## All readings -/

/-- Its first character says as what a text is read. -/
theorem read_cases (logical : Bool) (c : Char) :
    (∃ k, read logical c = fun r => ⟨.token k [c], [c], r⟩) ∨
      (∃ k k', read logical c = comparison k k' c) ∨
      (∃ k, read logical c = operator k c) ∨
      (c = '/' ∧ read logical c = slash) ∨
      (c = '"' ∧ read logical c = string) ∨
      read logical c = word c := by
  cases hp : Kind.punctuation.lookup c with
  | some k =>
    refine Or.inl ⟨k, funext fun r => ?_⟩
    simp only [read, hp]
  | none =>
    refine Or.inr ?_
    cases hc : Kind.comparisons.lookup c with
    | some p =>
      refine Or.inl ⟨p.1, p.2, funext fun r => ?_⟩
      simp only [read, hp, hc]
    | none =>
      refine Or.inr ?_
      by_cases hl : ∃ k, logical = true ∧ Kind.logical.lookup c = some k
      · obtain ⟨k, rfl, hk⟩ := hl
        refine Or.inl ⟨k, funext fun r => ?_⟩
        simp only [read, hp, hc, hk]
      · have hread := read_of_no_table hp hc hl
        by_cases hslash : c = '/'
        · exact Or.inr (Or.inl ⟨hslash, funext fun r => (hread r).trans (if_pos hslash)⟩)
        · by_cases hquote : c = '"'
          · refine Or.inr (Or.inr (Or.inl ⟨hquote, funext fun r => ?_⟩))
            rw [hread, if_neg hslash, if_pos hquote]
          · refine Or.inr (Or.inr (Or.inr (funext fun r => ?_)))
            rw [hread, if_neg hslash, if_neg hquote]

/-- **Two characters of lookahead.**  Where the rest begins alike, the same is read. -/
theorem read_of_outlook {logical : Bool} {c : Char} {r r' s' : Text}
    (hs : outlook s' = outlook (read logical c r).rest)
    (hr : c :: r' = (read logical c r).taken ++ s') :
    read logical c r' = { read logical c r with rest := s' } := by
  rcases read_cases logical c with
    ⟨k, h⟩ | ⟨k, k', h⟩ | ⟨k, h⟩ | ⟨rfl, h⟩ | ⟨rfl, h⟩ | h
  all_goals rw [h] at hs hr ⊢
  · cases hr
    rfl
  · exact comparison_of_outlook hs hr
  · exact operator_of_outlook hs hr
  · exact slash_of_outlook hs hr
  · exact string_of_outlook hs hr
  · exact word_of_outlook hs hr

end Lexed

/-! ## A line feed behind a token -/

/-- A spelling does without the end of the source, unless it is a line comment that the end
closes. -/
theorem Spelling.closed_or {logical : Bool} {final : Prop} {k : Kind} {x w : Text}
    (h : Spelling logical final k x w) :
    Spelling logical False k x w ∨
      k = .comment ∧ ∃ b, '\n' ∉ b ∧ x = Lexed.trimReturn b ∧ w = '/' :: '/' :: b := by
  cases h with
  | punctuation h => exact Or.inl (.punctuation h)
  | single h => exact Or.inl (.single h)
  | double h => exact Or.inl (.double h)
  | divide => exact Or.inl .divide
  | operator hl h => exact Or.inl (.operator hl h)
  | word h => exact Or.inl (.word h)
  | string h => exact Or.inl (.string h)
  | blockComment h => exact Or.inl (.blockComment h)
  | @lineComment b e hb he =>
    rcases he with rfl | ⟨-, rfl⟩
    · exact Or.inl (.lineComment hb (Or.inl rfl))
    · exact Or.inr ⟨rfl, b, hb, rfl, by rw [List.append_nil]⟩

/-- A token is still read when a line feed and any text follow the source.  Only a comment that
the end of the source closed takes the line feed as well. -/
theorem read_lineFeed {logical : Bool} {c : Char} {r : Text} {k : Kind} {x w s : Text}
    (h : Lexed.read logical c r = ⟨.token k x, w, s⟩) (t : Text) :
    Lexed.read logical c (r ++ '\n' :: t) = ⟨.token k x, w, s ++ '\n' :: t⟩ ∨
      s = [] ∧ Lexed.read logical c (r ++ '\n' :: t) = ⟨.token k x, w ++ ['\n'], t⟩ := by
  have hsplit : w ++ s = c :: r := by
    have := Lexed.taken_append_rest logical c r
    rwa [h] at this
  by_cases hs : s = []
  · subst hs
    rw [List.append_nil] at hsplit
    have hspelt : Spelling logical (([] : Text) = []) k x w := by
      have := Lexed.read_explained logical c r
      rwa [h] at this
    rcases hspelt.closed_or with hspelt | ⟨rfl, b, hb, rfl, rfl⟩
    · obtain ⟨d, v, hw, hread⟩ := read_of_spelling (s := '\n' :: t)
        (hspelt.weaken fun _ => False.elim) (by simp [isSpace])
      rw [hsplit] at hw
      obtain ⟨rfl, rfl⟩ := List.cons.inj hw
      exact Or.inl hread
    · obtain ⟨rfl, rfl⟩ := List.cons.inj hsplit
      exact Or.inr ⟨rfl, Lexed.lineComment_of_lineFeed hb t⟩
  · refine Or.inl ?_
    have hlook : outlook (s ++ '\n' :: t) = outlook (Lexed.read logical c r).rest := by
      rw [h]
      exact outlook_append_lineFeed hs t
    have htaken : c :: (r ++ '\n' :: t) = (Lexed.read logical c r).taken ++ (s ++ '\n' :: t) := by
      rw [h, ← List.append_assoc, hsplit, List.cons_append]
    rw [Lexed.read_of_outlook hlook htaken, h]

end LoxLexer
