/-!
# Texts and their lines

A text is a list of characters.  `pieces sep` cuts a text at every `sep`; a
line is a piece between line feeds.

    [sep].intercalate (t.pieces sep) = t                        (intercalate_pieces)
    pieces sep ([sep].intercalate ts) = ts for ts without sep   (pieces_intercalate)
    (t.pieces sep).length = t.count sep + 1                     (length_pieces)
    (s ++ sep :: t).pieces sep = s.pieces sep ++ t.pieces sep   (pieces_append_sep)
    ofInt m = ofInt n → m = n                                   (ofInt_injective)

`lineCount` counts lines the way an editor shows them: a final line feed ends
the last line and starts none.
-/

namespace LoxLexer

abbrev Text := List Char

namespace Text

/-! ## Algorithm -/

/-- The texts between the occurrences of `sep`. -/
def pieces (sep : Char) : Text → List Text
  | [] => [[]]
  | c :: t =>
    if c = sep then [] :: pieces sep t
    else
      match pieces sep t with
      | [] => [[c]]
      | p :: ps => (c :: p) :: ps

/-- The lines of a text, without their line feeds. -/
def lines (t : Text) : List Text := pieces '\n' t

/-- The number of lines an editor shows. -/
def lineCount (t : Text) : Nat :=
  if t = [] then 0
  else t.count '\n' + (if t.getLast? = some '\n' then 0 else 1)

/-- Decimal digits of an integer, with a sign when it is negative. -/
def ofInt (n : Int) : Text := (toString n).toList

def ofNat (n : Nat) : Text := (toString n).toList

/-! ## Lemmas -/

theorem pieces_ne_nil (sep : Char) (t : Text) : pieces sep t ≠ [] := by
  cases t with
  | nil => simp [pieces]
  | cons c t =>
    unfold pieces
    split
    · simp
    · split <;> simp

theorem pieces_sep (sep : Char) (t : Text) : pieces sep (sep :: t) = [] :: pieces sep t := by
  simp [pieces]

theorem pieces_cons {sep c : Char} (h : c ≠ sep) (t : Text) :
    ∃ p ps, pieces sep t = p :: ps ∧ pieces sep (c :: t) = (c :: p) :: ps := by
  cases hp : pieces sep t with
  | nil => exact absurd hp (pieces_ne_nil sep t)
  | cons p ps => exact ⟨p, ps, rfl, by simp [pieces, h, hp]⟩

/-- Joining the pieces by the separator gives the text back. -/
theorem intercalate_pieces (sep : Char) (t : Text) : [sep].intercalate (pieces sep t) = t := by
  induction t with
  | nil => simp [pieces]
  | cons c t ih =>
    by_cases h : c = sep
    · subst h
      rw [pieces_sep]
      cases hp : pieces c t with
      | nil => exact absurd hp (pieces_ne_nil c t)
      | cons p ps =>
        rw [hp] at ih
        rw [List.intercalate_cons_cons, ih]
        simp
    · obtain ⟨p, ps, hp, hc⟩ := pieces_cons h t
      rw [hc]
      rw [hp] at ih
      cases ps with
      | nil => simp_all
      | cons q qs =>
        rw [List.intercalate_cons_cons] at ih ⊢
        simp [← ih]

theorem length_pieces (sep : Char) (t : Text) : (pieces sep t).length = t.count sep + 1 := by
  induction t with
  | nil => simp [pieces]
  | cons c t ih =>
    by_cases h : c = sep
    · subst h
      simp [pieces_sep, ih]
    · obtain ⟨p, ps, hp, hc⟩ := pieces_cons h t
      rw [hp] at ih
      rw [hc, List.count_cons_of_ne h]
      simpa using ih

/-- A separator cuts the pieces before it from those behind it. -/
theorem pieces_append_sep (sep : Char) (s t : Text) :
    pieces sep (s ++ sep :: t) = pieces sep s ++ pieces sep t := by
  induction s with
  | nil => exact pieces_sep sep t
  | cons c s ih =>
    by_cases h : c = sep
    · subst h
      rw [List.cons_append, pieces_sep, pieces_sep, ih]
      rfl
    · obtain ⟨p, ps, hp, hc⟩ := pieces_cons h s
      rw [List.cons_append, hc]
      rw [hp] at ih
      simp [pieces, h, ih]

theorem pieces_of_not_mem {sep : Char} {t : Text} (h : sep ∉ t) : pieces sep t = [t] := by
  induction t with
  | nil => rfl
  | cons c t ih =>
    obtain ⟨hc, ht⟩ := List.ne_and_not_mem_of_not_mem_cons h
    simp [pieces, hc.symm, ih ht]

/-- Texts without the separator are the pieces of what they are joined to. -/
theorem pieces_intercalate {sep : Char} {names : List Text} (hne : names ≠ [])
    (hsep : ∀ name ∈ names, sep ∉ name) : pieces sep ([sep].intercalate names) = names := by
  induction names with
  | nil => exact absurd rfl hne
  | cons name names ih =>
    have hname := pieces_of_not_mem (hsep name List.mem_cons_self)
    cases names with
    | nil => simpa using hname
    | cons next names =>
      have hrest := ih (List.cons_ne_nil _ _) fun n hn => hsep n (List.mem_cons_of_mem _ hn)
      rw [List.intercalate_cons_cons, List.append_assoc, List.singleton_append,
        pieces_append_sep, hname, hrest]
      rfl

/-- No piece holds the separator. -/
theorem not_mem_of_mem_pieces {sep : Char} {t p : Text} (h : p ∈ pieces sep t) : sep ∉ p := by
  induction t generalizing p with
  | nil => simp_all [pieces]
  | cons c t ih =>
    by_cases hs : c = sep
    · subst hs
      rw [pieces_sep, List.mem_cons] at h
      rcases h with rfl | h
      · simp
      · exact ih h
    · obtain ⟨q, qs, hq, hc⟩ := pieces_cons hs t
      rw [hc, List.mem_cons] at h
      rcases h with rfl | h
      · have := ih (p := q) (by simp [hq])
        simp [this, Ne.symm hs]
      · exact ih (by simp [hq, h])

theorem isDigit_of_mem_ofNat {n : Nat} {c : Char} (h : c ∈ ofNat n) : c.isDigit = true := by
  rw [ofNat, Nat.toString_eq_ofList_toDigits, String.toList_ofList] at h
  exact Nat.isDigit_of_mem_toDigits (by decide) (by decide) h

theorem ofInt_negSucc (n : Nat) : ofInt (Int.negSucc n) = '-' :: ofNat (n + 1) := by
  show ("-" ++ toString (n + 1)).toList = _
  rw [String.toList_append]
  rfl

theorem mem_ofInt {n : Int} {c : Char} (h : c ∈ ofInt n) : c = '-' ∨ c.isDigit = true := by
  cases n with
  | ofNat n => exact Or.inr (isDigit_of_mem_ofNat h)
  | negSucc n =>
    rw [ofInt_negSucc, List.mem_cons] at h
    exact h.imp_right isDigit_of_mem_ofNat

theorem not_mem_ofInt {c : Char} (hsign : c ≠ '-') (hdigit : c.isDigit = false) (n : Int) :
    c ∉ ofInt n := by
  intro hmem
  rcases mem_ofInt hmem with heq | heq
  · exact hsign heq
  · rw [hdigit] at heq
    cases heq

theorem ofNat_injective {m n : Nat} (h : ofNat m = ofNat n) : m = n := by
  rw [ofNat, ofNat, Nat.toString_eq_ofList_toDigits, Nat.toString_eq_ofList_toDigits,
    String.toList_ofList, String.toList_ofList] at h
  have hread := congrArg (Nat.ofDigitChars 10 · 0) h
  simpa only [Nat.ofDigitChars_ten_toDigits] using hread

/-- An integer can be told from its digits and its sign. -/
theorem ofInt_injective {m n : Int} (h : ofInt m = ofInt n) : m = n := by
  have hsign : ∀ (k : Nat) (t : Text), ofNat k ≠ '-' :: t := by
    intro k t heq
    have hdigit := isDigit_of_mem_ofNat (heq ▸ List.mem_cons_self : '-' ∈ ofNat k)
    cases hdigit
  cases m with
  | ofNat m =>
    cases n with
    | ofNat n => exact congrArg Int.ofNat (ofNat_injective h)
    | negSucc n =>
      rw [ofInt_negSucc] at h
      exact absurd h (hsign m _)
  | negSucc m =>
    cases n with
    | ofNat n =>
      rw [ofInt_negSucc] at h
      exact absurd h.symm (hsign n _)
    | negSucc n =>
      rw [ofInt_negSucc, ofInt_negSucc, List.cons.injEq] at h
      have hsucc := ofNat_injective h.2
      rw [Nat.add_right_cancel hsucc]

end Text

end LoxLexer
