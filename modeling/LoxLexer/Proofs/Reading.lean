import LoxLexer.Lexer
import LoxLexer.Proofs.Spelling

/-!
# What is read

A reading at the front of a text is always a spelling or a refusal.  The other
way round, a spelling before a space is read whole, and a spelling that stands
at the front is never read past in part.

    (read logical c r).Explained logical                                         (read_explained)
    Spelling … k x w → the text `w ++ s` is read as `⟨.token k x, w, s⟩`         (read_of_spelling)
    Spelling … k x v → c :: r = v ++ s → v.length ≤ (read … c r).taken.length    (length_le_taken)
-/

namespace LoxLexer

/-! ## Block comments -/

theorem endMark_prefix_iff {c : Char} {r : Text} :
    endMark <+: c :: r ↔ c = '*' ∧ r.head? = some '/' := by
  cases r with
  | nil => simp [endMark]
  | cons d r => simp [endMark, List.cons_prefix_cons, eq_comm]

namespace Lexed

theorem untilCloseFrom_eq_map (acc t : Text) :
    untilCloseFrom acc t = (untilClose t).map fun p => (acc.reverse ++ p.1, p.2) := by
  induction t generalizing acc with
  | nil => rfl
  | cons c r ih =>
    unfold untilClose
    rw [untilCloseFrom, untilCloseFrom]
    split
    · simp
    · rw [ih, ih [c], Option.map_map]
      congr 1
      funext p
      simp

theorem untilClose_cons_of_close {c : Char} {r : Text} (h : endMark <+: c :: r) :
    untilClose (c :: r) = some ([], r.drop 1) := by
  obtain ⟨rfl, hr⟩ := endMark_prefix_iff.mp h
  simp [untilClose, untilCloseFrom, hr]

theorem untilClose_cons_of_not_close {c : Char} {r : Text} (h : ¬ endMark <+: c :: r) :
    untilClose (c :: r) = (untilClose r).map fun p => (c :: p.1, p.2) := by
  have hif : ¬ ((decide (c = '*') && decide (r.head? = some '/')) = true) := by
    rw [endMark_prefix_iff] at h
    simpa using h
  rw [untilClose, untilCloseFrom, if_neg hif, untilCloseFrom_eq_map]
  rfl

theorem untilClose_eq_none_iff {t : Text} : untilClose t = none ↔ ¬ endMark <:+: t := by
  induction t with
  | nil => simp [untilClose, untilCloseFrom, endMark]
  | cons c r ih =>
    rw [List.infix_cons_iff]
    by_cases h : endMark <+: c :: r
    · simp [untilClose_cons_of_close h, h]
    · simp [untilClose_cons_of_not_close h, h, ih]

/-- The first end mark is the one that counts. -/
theorem untilClose_eq_some_iff {t body rest : Text} :
    untilClose t = some (body, rest) ↔ t = body ++ (endMark ++ rest) ∧ ¬ endMark <:+: body := by
  induction t generalizing body with
  | nil => simp [untilClose, untilCloseFrom, endMark]
  | cons c r ih =>
    by_cases h : endMark <+: c :: r
    · rw [untilClose_cons_of_close h]
      obtain ⟨rfl, hr⟩ := endMark_prefix_iff.mp h
      obtain ⟨d, s, rfl⟩ : ∃ d s, r = d :: s := by
        cases r with
        | nil => simp at hr
        | cons d s => exact ⟨d, s, rfl⟩
      obtain rfl : d = '/' := by simpa using hr
      constructor
      · intro he
        cases he
        exact ⟨rfl, by simp [endMark]⟩
      · rintro ⟨ht, hb⟩
        cases body with
        | nil =>
          have : s = rest := by simpa [endMark] using ht
          simp [this]
        | cons e body =>
          -- the mark at the front would lie inside the body, or across its end
          exfalso
          cases body with
          | nil => simp [endMark] at ht
          | cons f body =>
            simp only [List.cons_append, List.cons.injEq] at ht
            obtain ⟨rfl, rfl, -⟩ := ht
            exact hb ⟨[], body, rfl⟩
    · rw [untilClose_cons_of_not_close h]
      constructor
      · intro he
        obtain ⟨⟨b, s⟩, hbs, he⟩ := Option.map_eq_some_iff.mp he
        cases he
        obtain ⟨rfl, hb⟩ := ih.mp hbs
        refine ⟨rfl, ?_⟩
        rw [List.infix_cons_iff, not_or]
        refine ⟨fun hp => h ?_, hb⟩
        exact hp.trans (List.prefix_append (c :: b) _)
      · rintro ⟨ht, hb⟩
        cases body with
        | nil =>
          refine absurd ?_ h
          rw [ht]
          exact List.prefix_append _ _
        | cons e body =>
          simp only [List.cons_append, List.cons.injEq] at ht
          obtain ⟨rfl, rfl⟩ := ht
          rw [List.infix_cons_iff, not_or] at hb
          rw [ih.mpr ⟨rfl, hb.2⟩]
          rfl

/-! ## What is read is explained -/

theorem comparison_explained (logical : Bool) {c : Char} {k k' : Kind}
    (h : (c, k, k') ∈ Kind.comparisons) (r : Text) :
    (comparison k k' c r).Explained logical := by
  unfold comparison
  split
  · exact .double h
  · exact .single h

theorem operator_explained {c : Char} {k : Kind} (h : (c, k) ∈ Kind.logical) (r : Text) :
    (operator k c r).Explained true := by
  unfold operator
  split
  · exact .operator (s := []) rfl h (by simp)
  · next d r =>
    split
    · exact .operator rfl h
    · next hd => exact .operator (s := d :: r) rfl h (by simpa using hd)

theorem string_explained (logical : Bool) (r : Text) : (string r).Explained logical := by
  have hsplit := List.takeWhile_append_dropWhile (p := (· != '"')) (l := r)
  have hbody := Cursor.not_mem_takeWhile_bne '"' r
  unfold string
  simp only
  split
  · exact .string hbody
  · next q rest hd =>
    have hq : q = '"' := by
      have := List.head?_dropWhile_not (· != '"') r
      rw [hd] at this
      simpa using this
    subst hq
    exact .string hbody

theorem lineComment_explained (logical : Bool) (r : Text) :
    (lineComment r).Explained logical := by
  have hbody := Cursor.not_mem_takeWhile_bne '\n' r
  refine .lineComment hbody ?_
  cases hd : r.dropWhile (· != '\n') with
  | nil => exact Or.inr ⟨by simp [lineComment, hd], rfl⟩
  | cons c s =>
    have hc : c = '\n' := by
      have := List.head?_dropWhile_not (· != '\n') r
      rw [hd] at this
      simpa using this
    exact Or.inl (by simp [hc])

theorem blockComment_explained (logical : Bool) (r : Text) :
    (blockComment r).Explained logical := by
  unfold blockComment
  split
  · next body rest h => exact .blockComment (untilClose_eq_some_iff.mp h).2
  · next h => exact .comment (untilClose_eq_none_iff.mp h)

theorem slash_explained (logical : Bool) (r : Text) : (slash r).Explained logical := by
  unfold slash
  split
  · exact lineComment_explained logical _
  · exact blockComment_explained logical _
  · exact .divide

/-- A word is explained where nothing but a word can start with its first character. -/
theorem word_explained (logical : Bool) {c : Char} (r : Text)
    (h : Starts logical c → isWordChar c = true) : (word c r).Explained logical := by
  have hjoined := joined_spanWord (c :: r)
  have hrest := spanWord_rest (c :: r)
  unfold word
  split
  · next s hs =>
    have hc : isWordChar c = false := by
      cases hj : joinsWord c r with
      | true =>
        rw [spanWord_cons_of_joins hj] at hs
        cases hs
      | false =>
        simp only [joinsWord, Bool.or_eq_false_iff] at hj
        exact hj.1
    refine .character fun hstarts => ?_
    rw [h hstarts] at hc
    cases hc
  · next w rest hne hs =>
    rw [hs] at hjoined hrest
    have hw : w ≠ [] := by
      rintro rfl
      exact hne rfl
    split
    · next k hk => exact .word (ofWord?_eq_some_iff.mp hk)
    · next hk =>
      refine .word hw hjoined hrest fun k hk' => ?_
      rw [ofWord?_eq_some_iff.mpr hk'] at hk
      cases hk

end Lexed

theorem lookup_punctuation_iff {c : Char} {k : Kind} :
    Kind.punctuation.lookup c = some k ↔ (c, k) ∈ Kind.punctuation :=
  lookup_eq_some_iff_mem (by decide)

theorem lookup_comparisons_iff {c : Char} {k k' : Kind} :
    Kind.comparisons.lookup c = some (k, k') ↔ (c, k, k') ∈ Kind.comparisons :=
  lookup_eq_some_iff_mem (by decide)

theorem lookup_logical_iff {c : Char} {k : Kind} :
    Kind.logical.lookup c = some k ↔ (c, k) ∈ Kind.logical :=
  lookup_eq_some_iff_mem (by decide)

namespace Lexed

/-- Every reading at the front of a text is explained. -/
theorem read_explained (logical : Bool) (c : Char) (r : Text) :
    (read logical c r).Explained logical := by
  unfold read
  split
  · next k hp => exact .punctuation (lookup_punctuation_iff.mp hp)
  · next k k' _ hc => exact comparison_explained _ (lookup_comparisons_iff.mp hc) r
  · next k _ _ hl => exact operator_explained (lookup_logical_iff.mp hl) r
  · next logical _ _ _ _ hp hc hl =>
    split
    · exact slash_explained logical r
    · next hslash =>
      split
      · exact string_explained logical r
      · next hquote =>
        refine word_explained logical r fun hstarts => ?_
        cases hstarts with
        | punctuation h =>
          rw [lookup_punctuation_iff.mpr h] at hp
          cases hp
        | comparison h =>
          rw [lookup_comparisons_iff.mpr h] at hc
          cases hc
        | @operator _ k hon h => exact absurd hon (hl k (lookup_logical_iff.mpr h))
        | slash => exact absurd rfl hslash
        | quote => exact absurd rfl hquote
        | word h => exact h

end Lexed

/-! ## A spelling at the front -/

theorem bne_of_not_mem {a : Char} {x : Text} (h : a ∉ x) : ∀ c ∈ x, (c != a) = true := by
  intro c hc
  simpa using fun e : c = a => h (e ▸ hc)

theorem takeWhile_bne {a : Char} {x : Text} (h : a ∉ x) (s : Text) :
    (x ++ a :: s).takeWhile (· != a) = x := by
  rw [List.takeWhile_append_of_pos (bne_of_not_mem h)]
  simp

theorem dropWhile_bne {a : Char} {x : Text} (h : a ∉ x) (s : Text) :
    (x ++ a :: s).dropWhile (· != a) = a :: s := by
  rw [List.dropWhile_append_of_pos (bne_of_not_mem h)]
  simp

theorem takeWhile_bne_self {a : Char} {x : Text} (h : a ∉ x) : x.takeWhile (· != a) = x := by
  simpa using @List.takeWhile_append_of_pos _ _ _ [] (bne_of_not_mem h)

theorem dropWhile_bne_self {a : Char} {x : Text} (h : a ∉ x) : x.dropWhile (· != a) = [] := by
  simpa using @List.dropWhile_append_of_pos _ _ _ [] (bne_of_not_mem h)

/-- A space ends every word. -/
theorem spanWord_of_space {s : Text} (hs : ∀ d ∈ s.head?, isSpace d = true) :
    spanWord s = ([], s) := by
  cases s with
  | nil => rfl
  | cons d s =>
    have hd : isSpace d = true := hs d rfl
    have hword : isWordChar d = false := by
      rw [Bool.eq_false_iff]
      intro hw
      rw [not_isSpace_of_isWordChar hw] at hd
      cases hd
    have hdot : d ≠ '.' := by
      rintro rfl
      cases hd
    exact spanWord_cons_of_not_joins (by simp [joinsWord, hword, hdot])

theorem lookup_eq_none_of_isWordChar {β : Type} {l : List (Char × β)}
    (hl : ∀ p ∈ l, isWordChar p.1 = false) {c : Char} (hc : isWordChar c = true) :
    l.lookup c = none := by
  rw [List.lookup_eq_none_iff]
  intro p hp
  have : c ≠ p.1 := by
    rintro rfl
    rw [hl p hp] at hc
    cases hc
  simpa using this

namespace Lexed

variable (logical : Bool) {c : Char} {k k' : Kind} (r : Text)

theorem read_of_punctuation (h : (c, k) ∈ Kind.punctuation) :
    read logical c r = ⟨.token k [c], [c], r⟩ := by
  unfold read
  rw [lookup_punctuation_iff.mpr h]

theorem read_of_comparison (h : (c, k, k') ∈ Kind.comparisons) :
    read logical c r = comparison k k' c r := by
  have key : ∀ p ∈ Kind.comparisons, Kind.punctuation.lookup p.1 = none := by decide
  unfold read
  rw [lookup_comparisons_iff.mpr h, key _ h]

theorem read_of_operator (h : (c, k) ∈ Kind.logical) : read true c r = operator k c r := by
  have key : ∀ p ∈ Kind.logical,
      Kind.punctuation.lookup p.1 = none ∧ Kind.comparisons.lookup p.1 = none := by decide
  unfold read
  rw [lookup_logical_iff.mpr h, (key _ h).1, (key _ h).2]

theorem read_of_isWordChar (h : isWordChar c = true) : read logical c r = word c r := by
  have hp := lookup_eq_none_of_isWordChar (l := Kind.punctuation) (by decide) h
  have hc := lookup_eq_none_of_isWordChar (l := Kind.comparisons) (by decide) h
  have hl := lookup_eq_none_of_isWordChar (l := Kind.logical) (by decide) h
  have hslash : c ≠ '/' := by
    rintro rfl
    revert h
    decide
  have hquote : c ≠ '"' := by
    rintro rfl
    revert h
    decide
  unfold read
  rw [hp, hc, hl]
  simp [hslash, hquote]

omit r

theorem string_of_not_mem {x : Text} (h : '"' ∉ x) (s : Text) :
    string (x ++ '"' :: s) = ⟨.token .string x, '"' :: (x ++ ['"']), s⟩ := by
  simp only [string, takeWhile_bne h, dropWhile_bne h]

theorem lineComment_of_lineFeed {b : Text} (h : '\n' ∉ b) (s : Text) :
    lineComment (b ++ '\n' :: s) =
      ⟨.token .comment (trimReturn b), '/' :: '/' :: (b ++ ['\n']), s⟩ := by
  simp [lineComment, takeWhile_bne h, dropWhile_bne h]

theorem lineComment_of_not_mem {b : Text} (h : '\n' ∉ b) :
    lineComment b = ⟨.token .comment (trimReturn b), '/' :: '/' :: b, []⟩ := by
  simp [lineComment, takeWhile_bne_self h, dropWhile_bne_self h]

theorem blockComment_of_closed {x : Text} (h : ¬ endMark <:+: x) (s : Text) :
    blockComment (x ++ (endMark ++ s)) =
      ⟨.token .comment x, '/' :: '*' :: (x ++ endMark), s⟩ := by
  rw [blockComment, untilClose_eq_some_iff.mpr ⟨rfl, h⟩]
  rfl

theorem word_of_isWord {k : Kind} {w s : Text} {c : Char} {r : Text} (h : IsWord k w)
    (hs : ∀ d ∈ s.head?, isSpace d = true) (hw : c :: r = w ++ s) :
    word c r = ⟨.token k w, w, s⟩ := by
  have hspan : spanWord (c :: r) = (w, s) := by
    rw [hw, spanWord_of_joined (h.joined s), spanWord_of_space hs]
    simp
  obtain ⟨d, v, rfl, -⟩ := h.exists_cons
  simp only [word, hspan, ofWord?_eq_some_iff.mpr h]

/-- A word takes its whole run, whether it is a token or not. -/
theorem spanWord_prefix_taken (c : Char) (r : Text) :
    (spanWord (c :: r)).1.length ≤ (word c r).taken.length := by
  unfold word
  split
  · next hs =>
    rw [hs]
    exact Nat.zero_le _
  · next w rest _ hs =>
    rw [hs]
    split <;> exact Nat.le_refl _

end Lexed

/-- A spelling at the end of the source, or before a space, is read as it was meant. -/
theorem read_of_spelling {logical : Bool} {k : Kind} {x w s : Text}
    (h : Spelling logical (s = []) k x w) (hs : ∀ d ∈ s.head?, isSpace d = true) :
    ∃ c r, w ++ s = c :: r ∧ Lexed.read logical c r = ⟨.token k x, w, s⟩ := by
  cases h with
  | punctuation h => exact ⟨_, _, rfl, Lexed.read_of_punctuation _ _ h⟩
  | @single c _ k' h =>
    refine ⟨_, _, rfl, ?_⟩
    rw [Lexed.read_of_comparison _ _ h]
    cases s with
    | nil => rfl
    | cons d s =>
      have hd : d ≠ '=' := by
        rintro rfl
        cases hs '=' rfl
      show Lexed.comparison k k' c (d :: s) = _
      unfold Lexed.comparison
      split
      · next he => exact absurd (List.cons.inj he).1 hd
      · rfl
  | double h =>
    refine ⟨_, _, rfl, ?_⟩
    rw [Lexed.read_of_comparison _ _ h]
    rfl
  | divide =>
    refine ⟨_, _, rfl, ?_⟩
    show Lexed.slash s = _
    unfold Lexed.slash
    split
    · cases hs '/' rfl
    · cases hs '*' rfl
    · rfl
  | operator hl h =>
    refine ⟨_, _, rfl, ?_⟩
    rw [hl, Lexed.read_of_operator _ h]
    simp [Lexed.operator]
  | word h =>
    obtain ⟨c, r, rfl, hc⟩ := h.exists_cons
    refine ⟨c, r ++ s, rfl, ?_⟩
    rw [Lexed.read_of_isWordChar _ _ hc]
    exact Lexed.word_of_isWord h hs rfl
  | string h =>
    refine ⟨_, _, rfl, ?_⟩
    show Lexed.string (x ++ ['"'] ++ s) = _
    rw [List.append_assoc]
    exact Lexed.string_of_not_mem h s
  | @lineComment b e h he =>
    refine ⟨_, _, rfl, ?_⟩
    show Lexed.lineComment (b ++ e ++ s) = _
    rw [List.append_assoc]
    rcases he with rfl | ⟨rfl, rfl⟩
    · exact Lexed.lineComment_of_lineFeed h s
    · rw [List.append_nil, List.append_nil]
      exact Lexed.lineComment_of_not_mem h
  | blockComment h =>
    refine ⟨_, _, rfl, ?_⟩
    show Lexed.blockComment (_ ++ endMark ++ s) = _
    rw [List.append_assoc]
    exact Lexed.blockComment_of_closed h s

/-- No spelling reaches farther than what is read there, as a token or as an error. -/
theorem length_le_taken {logical : Bool} {final : Prop} {k : Kind} {x v s : Text} {c : Char}
    {r : Text} (h : Spelling logical final k x v) (hv : c :: r = v ++ s) :
    v.length ≤ (Lexed.read logical c r).taken.length := by
  have hpos : 1 ≤ (Lexed.read logical c r).taken.length :=
    List.length_pos_iff.mpr (Lexed.taken_ne_nil logical c r)
  cases h with
  | punctuation _ => exact hpos
  | single _ => exact hpos
  | divide => exact hpos
  | double h =>
    cases hv
    rw [Lexed.read_of_comparison _ _ h]
    exact Nat.le_refl _
  | operator hl h =>
    cases hv
    rw [hl, Lexed.read_of_operator _ h]
    simp [Lexed.operator]
  | word h =>
    obtain ⟨d, u, rfl, hd⟩ := h.exists_cons
    obtain ⟨rfl, rfl⟩ := List.cons.inj hv
    rw [Lexed.read_of_isWordChar _ _ hd]
    refine Nat.le_trans ?_ (Lexed.spanWord_prefix_taken _ _)
    show _ ≤ (spanWord (c :: u ++ s)).1.length
    rw [spanWord_of_joined (h.joined s), List.length_append]
    omega
  | string h =>
    cases hv
    show _ ≤ (Lexed.string (x ++ ['"'] ++ s)).taken.length
    rw [List.append_assoc]
    have hread := Lexed.string_of_not_mem h s
    exact Nat.le_of_eq (congrArg (·.taken.length) hread.symm)
  | @lineComment b e h he =>
    cases hv
    show _ ≤ (Lexed.lineComment (b ++ e ++ s)).taken.length
    rw [List.append_assoc]
    rcases he with rfl | ⟨-, rfl⟩
    · have hread := Lexed.lineComment_of_lineFeed h s
      exact Nat.le_of_eq (congrArg (·.taken.length) hread.symm)
    · -- the comment may go on in `s`
      simp only [Lexed.lineComment, List.nil_append, List.append_nil,
        List.takeWhile_append_of_pos (bne_of_not_mem h), List.length_cons, List.length_append]
      omega
  | blockComment h =>
    cases hv
    show _ ≤ (Lexed.blockComment (x ++ endMark ++ s)).taken.length
    rw [List.append_assoc]
    have hread := Lexed.blockComment_of_closed h s
    exact Nat.le_of_eq (congrArg (·.taken.length) hread.symm)

end LoxLexer
