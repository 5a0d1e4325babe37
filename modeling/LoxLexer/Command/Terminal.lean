import LoxLexer.Text.Basic

/-!
# Text for a terminal

Messages go out without colour: an escape character, a bracket, any digits,
semicolons and question marks, and a letter are one control sequence, and no
part of it is written.

    '\x1b' ∉ t → plain t = t                                    (plain_of_not_mem)
    plain (s ++ '\n' :: t) = plain s ++ '\n' :: plain t          (plain_append_lineFeed)
    (plain t).lines = t.lines.map plain                          (lines_plain)
-/

namespace LoxLexer.Terminal

/-! ## Algorithm -/

def escapeChar : Char := '\x1b'

def isParameter (c : Char) : Bool := c = ';' || c = '?' || c.isDigit

/-- The text behind the control sequence at its front, if there is one. -/
def afterSequence? : Text → Option Text
  | e :: '[' :: t =>
    if e = escapeChar then
      match t.dropWhile isParameter with
      | c :: rest => if c.isAlpha then some rest else none
      | [] => none
    else none
  | _ => none

/-- What `plain` gives for at most `fuel` characters. -/
def plainFrom : (fuel : Nat) → (acc : Text) → Text → Text
  | 0, acc, t => acc.reverse ++ t
  | _, acc, [] => acc.reverse
  | fuel + 1, acc, c :: t =>
    match afterSequence? (c :: t) with
    | some rest => plainFrom fuel acc rest
    | none => plainFrom fuel (c :: acc) t

/-- A text without its control sequences; each step takes a character, so its length is fuel
enough. -/
def plain (t : Text) : Text := plainFrom t.length [] t

/-! ## Lemmas -/

theorem afterSequence?_of_ne {c : Char} (h : c ≠ escapeChar) (t : Text) :
    afterSequence? (c :: t) = none := by
  unfold afterSequence?
  split
  · next heq =>
    simp only [List.cons.injEq] at heq
    rw [← heq.1, if_neg h]
  · rfl

theorem plainFrom_of_not_mem {t : Text} (h : escapeChar ∉ t) (acc : Text) :
    plainFrom t.length acc t = acc.reverse ++ t := by
  induction t generalizing acc with
  | nil => rfl
  | cons c t ih =>
    simp only [List.mem_cons, not_or] at h
    rw [List.length_cons, plainFrom, afterSequence?_of_ne (Ne.symm h.1)]
    simp only
    rw [ih h.2]
    simp

/-- Text without escape characters goes out as it is. -/
theorem plain_of_not_mem {t : Text} (h : escapeChar ∉ t) : plain t = t := by
  simpa [plain] using plainFrom_of_not_mem h []

/-! ### Equations -/

theorem plainFrom_acc (fuel : Nat) (acc t : Text) :
    plainFrom fuel acc t = acc.reverse ++ plainFrom fuel [] t := by
  induction fuel generalizing acc t with
  | zero => rfl
  | succ fuel ih =>
    cases t with
    | nil => simp [plainFrom]
    | cons c t =>
      rw [plainFrom, plainFrom]
      cases afterSequence? (c :: t) with
      | some rest => exact ih acc rest
      | none =>
        simp only
        rw [ih (c :: acc), ih [c]]
        simp

theorem afterSequence?_of_ne_bracket {d : Char} (h : d ≠ '[') (c : Char) (t : Text) :
    afterSequence? (c :: d :: t) = none := by
  unfold afterSequence?
  split
  · next heq =>
    obtain ⟨-, heq⟩ := List.cons.inj heq
    exact absurd (List.cons.inj heq).1 h
  · rfl

/-- What a control sequence is made of. -/
theorem afterSequence?_inv {c : Char} {t rest : Text} (h : afterSequence? (c :: t) = some rest) :
    ∃ s a, c = escapeChar ∧ t = '[' :: s ∧ s.dropWhile isParameter = a :: rest ∧
      a.isAlpha = true := by
  cases t with
  | nil => cases h
  | cons d s =>
    by_cases hd : d = '['
    · subst hd
      refine ⟨s, ?_⟩
      simp only [afterSequence?] at h
      split at h
      · next hc =>
        cases hs : s.dropWhile isParameter with
        | nil =>
          rw [hs] at h
          cases h
        | cons a behind =>
          rw [hs] at h
          simp only at h
          split at h
          · next halpha =>
            cases h
            exact ⟨a, hc, rfl, rfl, halpha⟩
          · cases h
      · cases h
    · rw [afterSequence?_of_ne_bracket hd] at h
      cases h

theorem afterSequence?_suffix {c : Char} {t rest : Text}
    (h : afterSequence? (c :: t) = some rest) : rest <:+ t := by
  obtain ⟨s, a, -, rfl, hs, -⟩ := afterSequence?_inv h
  have hbehind : a :: rest <:+ s := hs ▸ List.dropWhile_suffix isParameter
  exact ((List.suffix_cons a rest).trans hbehind).trans (List.suffix_cons '[' s)

/-- More fuel than characters changes nothing. -/
theorem plainFrom_fuel {fuel fuel' : Nat} {t : Text} (h : t.length ≤ fuel)
    (h' : t.length ≤ fuel') : plainFrom fuel [] t = plainFrom fuel' [] t := by
  induction fuel generalizing fuel' t with
  | zero =>
    have ht : t = [] := List.length_eq_zero_iff.mp (Nat.le_zero.mp h)
    subst ht
    cases fuel' <;> rfl
  | succ fuel ih =>
    cases t with
    | nil => cases fuel' <;> rfl
    | cons c t =>
      rw [List.length_cons] at h h'
      obtain ⟨fuel', rfl⟩ : ∃ n, fuel' = n + 1 := ⟨fuel' - 1, by omega⟩
      rw [plainFrom, plainFrom]
      cases hsequence : afterSequence? (c :: t) with
      | some rest =>
        have hle := (afterSequence?_suffix hsequence).length_le
        exact ih (by omega) (by omega)
      | none =>
        simp only
        have hrest : plainFrom fuel [] t = plainFrom fuel' [] t := ih (by omega) (by omega)
        rw [plainFrom_acc fuel, plainFrom_acc fuel', hrest]

/-- No part of a control sequence is written. -/
theorem plain_of_sequence {c : Char} {t rest : Text} (h : afterSequence? (c :: t) = some rest) :
    plain (c :: t) = plain rest := by
  have hle := (afterSequence?_suffix h).length_le
  rw [plain, List.length_cons, plainFrom, h]
  exact plainFrom_fuel hle (Nat.le_refl _)

theorem plain_cons {c : Char} {t : Text} (h : afterSequence? (c :: t) = none) :
    plain (c :: t) = c :: plain t := by
  rw [plain, List.length_cons, plainFrom, h]
  simp only
  rw [plainFrom_acc]
  rfl

/-- Cases and induction in one: a text is empty, or it starts with a control sequence, or with a
character that is written. -/
theorem plain_induction {motive : Text → Prop} (nil : motive [])
    (sequence : ∀ c t rest, afterSequence? (c :: t) = some rest → motive rest → motive (c :: t))
    (written : ∀ c t, afterSequence? (c :: t) = none → motive t → motive (c :: t)) (t : Text) :
    motive t := by
  induction hn : t.length using Nat.strongRecOn generalizing t with
  | ind n ih =>
    cases t with
    | nil => exact nil
    | cons c t =>
      rw [List.length_cons] at hn
      cases h : afterSequence? (c :: t) with
      | some rest =>
        have hle := (afterSequence?_suffix h).length_le
        exact sequence c t rest h (ih rest.length (by omega) rest rfl)
      | none => exact written c t h (ih t.length (by omega) t rfl)

/-! ### Lines -/

theorem mem_of_mem_plain {t : Text} {x : Char} (h : x ∈ plain t) : x ∈ t := by
  induction t using plain_induction with
  | nil => exact h
  | sequence c t rest hsequence ih =>
    rw [plain_of_sequence hsequence] at h
    exact List.mem_cons_of_mem c ((afterSequence?_suffix hsequence).subset (ih h))
  | written c t hnone ih =>
    rw [plain_cons hnone, List.mem_cons] at h
    rcases h with rfl | h
    · exact List.mem_cons_self
    · exact List.mem_cons_of_mem c (ih h)

/-- A line feed is no part of a control sequence. -/
theorem afterSequence?_append_lineFeed (c : Char) (s t : Text) :
    afterSequence? (c :: s ++ '\n' :: t) =
      (afterSequence? (c :: s)).map (· ++ '\n' :: t) := by
  by_cases hc : c = escapeChar
  · cases s with
    | nil => rfl
    | cons d s =>
      by_cases hd : d = '['
      · subst hd
        have hparameters : (s ++ '\n' :: t).dropWhile isParameter =
            s.dropWhile isParameter ++ '\n' :: t := by
          rw [List.dropWhile_append]
          split
          · next hempty =>
            rw [List.isEmpty_iff.mp hempty]
            rfl
          · rfl
        show afterSequence? (c :: '[' :: (s ++ '\n' :: t)) = _
        unfold afterSequence?
        simp only [if_pos hc, hparameters]
        cases s.dropWhile isParameter with
        | nil => rfl
        | cons a rest =>
          show (if a.isAlpha = true then some (rest ++ '\n' :: t) else none) =
            (if a.isAlpha = true then some rest else none).map _
          split
          · rfl
          · rfl
      · rw [afterSequence?_of_ne_bracket hd]
        exact afterSequence?_of_ne_bracket hd c _
  · rw [afterSequence?_of_ne hc]
    exact afterSequence?_of_ne hc _

theorem plain_append_lineFeed (s t : Text) :
    plain (s ++ '\n' :: t) = plain s ++ '\n' :: plain t := by
  induction s using plain_induction with
  | nil => exact plain_cons (afterSequence?_of_ne (by decide) t)
  | sequence c s rest hsequence ih =>
    have hbehind : afterSequence? (c :: (s ++ '\n' :: t)) = some (rest ++ '\n' :: t) := by
      have hmap := afterSequence?_append_lineFeed c s t
      rwa [hsequence] at hmap
    rw [List.cons_append, plain_of_sequence hbehind, plain_of_sequence hsequence, ih]
  | written c s hnone ih =>
    have hbehind : afterSequence? (c :: (s ++ '\n' :: t)) = none := by
      have hmap := afterSequence?_append_lineFeed c s t
      rwa [hnone] at hmap
    rw [List.cons_append, plain_cons hbehind, plain_cons hnone, ih]
    rfl

/-- Control sequences go line by line. -/
theorem lines_plain (t : Text) : (plain t).lines = t.lines.map plain := by
  induction hn : t.count '\n' generalizing t with
  | zero =>
    have hfeed : '\n' ∉ t := List.count_eq_zero.mp hn
    have hplain : '\n' ∉ plain t := fun hmem => hfeed (mem_of_mem_plain hmem)
    rw [Text.lines, Text.lines, Text.pieces_of_not_mem hfeed, Text.pieces_of_not_mem hplain]
    rfl
  | succ n ih =>
    have hmem : '\n' ∈ t := List.count_pos_iff.mp (by omega)
    obtain ⟨u, v, rfl, hu⟩ := List.eq_append_cons_of_mem hmem
    have hplain : '\n' ∉ plain u := fun hmem => hu (mem_of_mem_plain hmem)
    have hv : v.count '\n' = n := by
      rw [List.count_append, List.count_eq_zero.mpr hu, List.count_cons_self] at hn
      omega
    have hlines : Text.pieces '\n' (plain v) = (Text.pieces '\n' v).map plain := ih v hv
    rw [plain_append_lineFeed, Text.lines, Text.lines, Text.pieces_append_sep,
      Text.pieces_append_sep, Text.pieces_of_not_mem hu, Text.pieces_of_not_mem hplain, hlines]
    rfl

end LoxLexer.Terminal
