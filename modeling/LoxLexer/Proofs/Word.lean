import LoxLexer.Lexed

/-!
# Words

The words of each kind as a grammar, and how far a word reaches.

    Kind.ofWord? w = some k ↔ IsWord k w                                      (ofWord?_eq_some_iff)
    Joined w s → spanWord (w ++ s) = (w ++ (spanWord s).1, (spanWord s).2)    (spanWord_of_joined)
    IsWord k w → Joined w s                                                   (IsWord.joined)
-/

namespace LoxLexer

/-! ## The grammar -/

/-- One or more ASCII digits. -/
def IsDigits (w : Text) : Prop := w ≠ [] ∧ ∀ c ∈ w, c.isDigit = true

/-- ASCII letters, digits and `_`; the first is no digit. -/
def IsName (w : Text) : Prop :=
  ∃ c r, w = c :: r ∧ (c.isAlpha = true ∨ c = '_') ∧ ∀ d ∈ r, d.isAlphanum = true ∨ d = '_'

inductive IsWord : Kind → Text → Prop
  | keyword {k : Kind} {w : Text} : (w, k) ∈ Kind.keywords → IsWord k w
  | integer {w : Text} : IsDigits w → IsWord .integer w
  | float {a b : Text} : IsDigits a → IsDigits b → IsWord .float (a ++ '.' :: b)
  | identifier {w : Text} : IsName w → (∀ k, (w, k) ∉ Kind.keywords) → IsWord .identifier w

/-- Every character of `w` lets a word go on, with `s` behind `w`. -/
def Joined : Text → Text → Prop
  | [], _ => True
  | c :: w, s => joinsWord c (w ++ s) = true ∧ Joined w s

/-! ## Tables -/

/-- In a table without a double key, looking up is membership. -/
theorem lookup_eq_some_iff_mem {α β : Type} [BEq α] [LawfulBEq α] {l : List (α × β)}
    (hl : (l.map (·.1)).Nodup) {a : α} {b : β} : l.lookup a = some b ↔ (a, b) ∈ l := by
  induction l with
  | nil => simp
  | cons p l ih =>
    obtain ⟨x, y⟩ := p
    simp only [List.map_cons, List.nodup_cons] at hl
    rw [List.lookup_cons, List.mem_cons]
    by_cases hx : a = x
    · subst hx
      have hnot : (a, b) ∉ l := fun h => hl.1 (List.mem_map.mpr ⟨_, h, rfl⟩)
      simp [hnot, eq_comm]
    · have hne : (a == x) = false := beq_eq_false_iff_ne.mpr hx
      simp [hne, hx, ih hl.2]

theorem lookup_keywords_iff {w : Text} {k : Kind} :
    Kind.keywords.lookup w = some k ↔ (w, k) ∈ Kind.keywords :=
  lookup_eq_some_iff_mem (by decide)

/-- A keyword is a name. -/
theorem isIdentifierText_of_mem_keywords {w : Text} {k : Kind} (h : (w, k) ∈ Kind.keywords) :
    isIdentifierText w = true := by
  have key : ∀ p ∈ Kind.keywords, isIdentifierText p.1 = true := by decide
  exact key _ h

/-! ## Classes -/

theorem isIntegerText_iff {w : Text} : isIntegerText w = true ↔ IsDigits w := by
  simp [isIntegerText, IsDigits]

theorem isIdentifierText_iff {w : Text} : isIdentifierText w = true ↔ IsName w := by
  cases w with
  | nil => simp [isIdentifierText, IsName]
  | cons c r =>
    simp only [isIdentifierText, Bool.and_eq_true, Bool.or_eq_true, List.all_eq_true,
      decide_eq_true_eq]
    constructor
    · intro h
      exact ⟨c, r, rfl, h⟩
    · rintro ⟨d, s, hw, h⟩
      cases hw
      exact h

section
variable {a : Text} (h : IsDigits a)

include h

theorem takeWhile_isDigit (b : Text) : (a ++ '.' :: b).takeWhile Char.isDigit = a := by
  rw [List.takeWhile_append_of_pos h.2, List.takeWhile_cons_of_neg (by decide), List.append_nil]

theorem dropWhile_isDigit (b : Text) : (a ++ '.' :: b).dropWhile Char.isDigit = '.' :: b := by
  rw [List.dropWhile_append_of_pos h.2, List.dropWhile_cons_of_neg (by decide)]

end

theorem isFloatText_iff {w : Text} :
    isFloatText w = true ↔ ∃ a b, IsDigits a ∧ IsDigits b ∧ w = a ++ '.' :: b := by
  have hsplit := List.takeWhile_append_dropWhile (p := Char.isDigit) (l := w)
  constructor
  · intro h
    unfold isFloatText at h
    split at h
    · next b hb =>
      simp only [Bool.and_eq_true, decide_eq_true_eq, isIntegerText_iff] at h
      rw [hb] at hsplit
      refine ⟨w.takeWhile Char.isDigit, b, ⟨h.1, ?_⟩, h.2, hsplit.symm⟩
      exact List.all_eq_true.mp List.all_takeWhile
    · cases h
  · rintro ⟨a, b, ha, hb, rfl⟩
    simp only [isFloatText, takeWhile_isDigit ha, dropWhile_isDigit ha, Bool.and_eq_true,
      decide_eq_true_eq, isIntegerText_iff]
    exact ⟨ha.1, hb⟩

theorem not_isDigit_of_isAlpha {c : Char} (h : c.isAlpha = true ∨ c = '_') :
    c.isDigit = false := by
  have hge : 65 ≤ c.val.toNat := by
    rcases h with h | rfl
    · rcases Bool.or_eq_true_iff.mp h with h | h
      · exact UInt32.le_iff_toNat_le.mp (of_decide_eq_true h).1
      · have hlower : 97 ≤ c.val.toNat :=
          UInt32.le_iff_toNat_le.mp (of_decide_eq_true (Bool.and_eq_true_iff.mp h).1)
        omega
    · decide
  rw [Bool.eq_false_iff]
  intro hd
  have hle : c.val.toNat ≤ 57 :=
    UInt32.le_iff_toNat_le.mp (of_decide_eq_true (Bool.and_eq_true_iff.mp hd).2)
  omega

theorem IsName.not_isDigits {w : Text} (h : IsName w) : ¬ IsDigits w := by
  obtain ⟨c, r, rfl, hc, -⟩ := h
  intro hd
  have := hd.2 c List.mem_cons_self
  rw [not_isDigit_of_isAlpha hc] at this
  cases this

theorem IsName.not_isFloatText {w : Text} (h : IsName w) : isFloatText w = false := by
  obtain ⟨c, r, rfl, hc, -⟩ := h
  have hdot : c ≠ '.' := by
    rintro rfl
    revert hc
    decide
  unfold isFloatText
  rw [List.dropWhile_cons_of_neg (by simp [not_isDigit_of_isAlpha hc])]
  split
  · next b hb =>
    cases hb
    exact absurd rfl hdot
  · rfl

theorem not_isDigits_float (a b : Text) : ¬ IsDigits (a ++ '.' :: b) := by
  intro h
  have := h.2 '.' (by simp)
  cases this

/-- The order in which a word is tried against the kinds does not matter: their texts differ. -/
theorem ofWord?_eq_some_iff {w : Text} {k : Kind} : Kind.ofWord? w = some k ↔ IsWord k w := by
  constructor
  · intro h
    unfold Kind.ofWord? at h
    split at h
    · next j hj =>
      cases h
      exact .keyword (lookup_keywords_iff.mp hj)
    · next hnone =>
      split at h
      · next hi =>
        cases h
        exact .integer (isIntegerText_iff.mp hi)
      · split at h
        · next hf =>
          cases h
          obtain ⟨a, b, ha, hb, rfl⟩ := isFloatText_iff.mp hf
          exact .float ha hb
        · split at h
          · next hn =>
            cases h
            refine .identifier (isIdentifierText_iff.mp hn) fun k hk => ?_
            rw [lookup_keywords_iff.mpr hk] at hnone
            cases hnone
          · cases h
  · intro h
    have hnone : ¬ IsName w → Kind.keywords.lookup w = none := by
      intro hn
      cases hl : Kind.keywords.lookup w with
      | none => rfl
      | some k =>
        have := isIdentifierText_of_mem_keywords (lookup_keywords_iff.mp hl)
        exact absurd (isIdentifierText_iff.mp this) hn
    cases h with
    | keyword h => simp [Kind.ofWord?, lookup_keywords_iff.mpr h]
    | integer h =>
      have hn : ¬ IsName w := fun hn => hn.not_isDigits h
      simp [Kind.ofWord?, hnone hn, isIntegerText_iff.mpr h]
    | @float a b ha hb =>
      have hf := isFloatText_iff.mpr ⟨a, b, ha, hb, rfl⟩
      have hn : ¬ IsName (a ++ '.' :: b) := fun hn => by simp [hn.not_isFloatText] at hf
      have hi : isIntegerText (a ++ '.' :: b) = false := by
        rw [Bool.eq_false_iff, ne_eq, isIntegerText_iff]
        exact not_isDigits_float a b
      simp [Kind.ofWord?, hnone hn, hi, hf]
    | identifier h hk =>
      have hl : Kind.keywords.lookup w = none := by
        cases hl : Kind.keywords.lookup w with
        | none => rfl
        | some k => exact absurd (lookup_keywords_iff.mp hl) (hk k)
      have hi : isIntegerText w = false := by
        rw [Bool.eq_false_iff, ne_eq, isIntegerText_iff]
        exact h.not_isDigits
      simp [Kind.ofWord?, hl, hi, h.not_isFloatText, isIdentifierText_iff.mpr h]

/-! ## Reach -/

theorem isWordChar_of_isAlphanum {c : Char} (h : c.isAlphanum = true) : isWordChar c = true := by
  simp [isWordChar, Text.isAlphanumeric_of_isAlphanum h]

theorem isWordChar_of_isDigit {c : Char} (h : c.isDigit = true) : isWordChar c = true :=
  isWordChar_of_isAlphanum (by simp [Char.isAlphanum, h])

theorem spanWord_nil : spanWord [] = ([], []) := rfl

theorem spanWordFrom_eq_spanWord (acc t : Text) :
    spanWordFrom acc t = (acc.reverse ++ (spanWord t).1, (spanWord t).2) := by
  induction t generalizing acc with
  | nil => simp [spanWordFrom, spanWord_nil]
  | cons c r ih =>
    unfold spanWord
    rw [spanWordFrom, spanWordFrom]
    split
    · rw [ih, ih [c]]
      simp
    · simp

theorem spanWord_cons_of_joins {c : Char} {r : Text} (h : joinsWord c r = true) :
    spanWord (c :: r) = (c :: (spanWord r).1, (spanWord r).2) := by
  rw [spanWord, spanWordFrom, if_pos h, spanWordFrom_eq_spanWord]
  rfl

theorem spanWord_cons_of_not_joins {c : Char} {r : Text} (h : joinsWord c r = false) :
    spanWord (c :: r) = ([], c :: r) := by
  rw [spanWord, spanWordFrom, if_neg (by simp [h])]
  rfl

/-- A word takes everything that joins it. -/
theorem spanWord_of_joined {w s : Text} (h : Joined w s) :
    spanWord (w ++ s) = (w ++ (spanWord s).1, (spanWord s).2) := by
  induction w with
  | nil => rfl
  | cons c w ih =>
    rw [List.cons_append, spanWord_cons_of_joins h.1, ih h.2]
    rfl

/-- What a word takes joins it. -/
theorem joined_spanWord (t : Text) : Joined (spanWord t).1 (spanWord t).2 := by
  induction t with
  | nil => trivial
  | cons c r ih =>
    cases h : joinsWord c r with
    | true =>
      rw [spanWord_cons_of_joins h]
      refine ⟨?_, ih⟩
      rw [spanWord_append]
      exact h
    | false =>
      rw [spanWord_cons_of_not_joins h]
      trivial

/-- What a word leaves does not join it. -/
theorem spanWord_rest (t : Text) : (spanWord (spanWord t).2).1 = [] := by
  induction t with
  | nil => rfl
  | cons c r ih =>
    cases h : joinsWord c r with
    | true =>
      rw [spanWord_cons_of_joins h]
      exact ih
    | false => rw [spanWord_cons_of_not_joins h, spanWord_cons_of_not_joins h]

theorem joined_of_isWordChar {w : Text} (h : ∀ c ∈ w, isWordChar c = true) (s : Text) :
    Joined w s := by
  induction w with
  | nil => trivial
  | cons c w ih =>
    refine ⟨by simp [joinsWord, h c], ih fun d hd => h d (List.mem_cons_of_mem _ hd)⟩

/-- A word is on one line. -/
theorem Joined.lineFeed_not_mem {w s : Text} (h : Joined w s) : '\n' ∉ w := by
  induction w with
  | nil => simp
  | cons c w ih =>
    intro hmem
    rcases List.mem_cons.mp hmem with rfl | hmem
    · cases h.1
    · exact ih h.2 hmem

theorem joined_append {u v s : Text} (hu : Joined u (v ++ s)) (hv : Joined v s) :
    Joined (u ++ v) s := by
  induction u with
  | nil => exact hv
  | cons c u ih =>
    refine ⟨?_, ih hu.2⟩
    show joinsWord c (u ++ v ++ s) = true
    rw [List.append_assoc]
    exact hu.1

theorem IsDigits.joined {w : Text} (h : IsDigits w) (s : Text) : Joined w s :=
  joined_of_isWordChar (fun c hc => isWordChar_of_isDigit (h.2 c hc)) s

theorem IsName.isWordChar {w : Text} (h : IsName w) : ∀ c ∈ w, isWordChar c = true := by
  obtain ⟨c, r, rfl, hc, hr⟩ := h
  intro d hd
  have key : d.isAlphanum = true ∨ d = '_' := by
    rcases List.mem_cons.mp hd with rfl | hd
    · exact hc.imp_left fun ha => by simp [Char.isAlphanum, ha]
    · exact hr d hd
  rcases key with ha | rfl
  · exact isWordChar_of_isAlphanum ha
  · decide

/-- Whatever follows, a word of the grammar is read to its end. -/
theorem IsWord.joined {k : Kind} {w : Text} (h : IsWord k w) (s : Text) : Joined w s := by
  cases h with
  | keyword h =>
    have hn := isIdentifierText_iff.mp (isIdentifierText_of_mem_keywords h)
    exact joined_of_isWordChar hn.isWordChar s
  | integer h => exact h.joined s
  | @float a b ha hb =>
    refine joined_append (ha.joined _) ⟨?_, hb.joined s⟩
    -- the point joins because the fraction starts with a digit
    obtain ⟨hne, hd⟩ := hb
    cases b with
    | nil => exact absurd rfl hne
    | cons d b => simp [joinsWord, hd d]
  | identifier h _ => exact joined_of_isWordChar h.isWordChar s

theorem IsWord.exists_cons {k : Kind} {w : Text} (h : IsWord k w) :
    ∃ c r, w = c :: r ∧ LoxLexer.isWordChar c = true := by
  cases h with
  | keyword h =>
    have hn := isIdentifierText_iff.mp (isIdentifierText_of_mem_keywords h)
    obtain ⟨c, r, rfl, -⟩ := id hn
    exact ⟨c, r, rfl, hn.isWordChar c List.mem_cons_self⟩
  | integer h =>
    obtain ⟨c, r, rfl⟩ := List.exists_cons_of_ne_nil h.1
    exact ⟨c, r, rfl, isWordChar_of_isDigit (h.2 c List.mem_cons_self)⟩
  | @float a b ha hb =>
    obtain ⟨c, r, rfl⟩ := List.exists_cons_of_ne_nil ha.1
    exact ⟨c, r ++ '.' :: b, rfl, isWordChar_of_isDigit (ha.2 c List.mem_cons_self)⟩
  | identifier h _ =>
    obtain ⟨c, r, rfl, -⟩ := id h
    exact ⟨c, r, rfl, h.isWordChar c List.mem_cons_self⟩

end LoxLexer
