import Mathlib.Tactic.Ring
import LoxLexer.Proofs.Reading
import LoxLexer.Token.Basic

/-!
# Printed tokens

Both forms of a token show its kind, its lexeme and its line between the same
separators.  The name of a kind has no comma and a line number no space, so the
first separator and the last one are known, whatever the lexeme is.  A quoted
lexeme can be read from the front, one character after the other.

    unescape (escape q c ++ t) = some (c, t)                     (unescape_escape)
    quoted t = quoted u → t = u                                  (quoted_injective)
    fields of kind, shown lexeme and line determine them         (fields_injective)
    each form determines the token, and one of them is one line  (render_and_describe_injective)
-/

namespace LoxLexer

namespace Text

/-! ## Cutting at a separator -/

section
variable {a : Char} {x y s t : Text}

theorem cut_at_first (hx : a ∉ x) (hy : a ∉ y) (h : x ++ a :: s = y ++ a :: t) :
    x = y ∧ s = t := by
  have hfront := congrArg (List.takeWhile (· != a)) h
  have hrest := congrArg (List.dropWhile (· != a)) h
  rw [takeWhile_bne hx, takeWhile_bne hy] at hfront
  rw [dropWhile_bne hx, dropWhile_bne hy] at hrest
  exact ⟨hfront, List.tail_eq_of_cons_eq hrest⟩

theorem cut_at_last (hs : a ∉ s) (ht : a ∉ t) (h : x ++ a :: s = y ++ a :: t) :
    x = y ∧ s = t := by
  have hreverse := congrArg List.reverse h
  simp only [List.reverse_append, List.reverse_cons, List.append_assoc,
    List.singleton_append] at hreverse
  obtain ⟨hback, hfront⟩ := cut_at_first (by simpa using hs) (by simpa using ht) hreverse
  exact ⟨List.reverse_inj.mp hfront, List.reverse_inj.mp hback⟩

end

/-! ## Reading quoted text -/

def hexAlphabet : Text := "0123456789abcdef".toList

/-- The value of hexadecimal digits behind those with value `v`, highest first. -/
def hexValue (v : Nat) : Text → Nat
  | [] => v
  | d :: ds => hexValue (16 * v + hexAlphabet.idxOf d) ds

/-- How many hexadecimal digits follow a letter that is behind a backslash. -/
def hexWidth? : Char → Option Nat
  | 'x' => some 2
  | 'u' => some 4
  | 'U' => some 8
  | _ => none

/-- What a character behind a backslash stands for if no digits follow it. -/
def unmarked : Char → Char
  | 'n' => '\n'
  | 'r' => '\r'
  | 't' => '\t'
  | c => c

/-- The first character that a text between quotes shows, and what is behind its form. -/
def unescape : Text → Option (Char × Text)
  | [] => none
  | c :: t =>
    if c = '\\' then
      match t with
      | [] => none
      | m :: t =>
        match hexWidth? m with
        | some n => some (Char.ofNat (hexValue 0 (t.take n)), t.drop n)
        | none => some (unmarked m, t)
    else some (c, t)

theorem length_hexDigits (n v : Nat) : (hexDigits n v).length = n := by
  induction n with
  | zero => rfl
  | succ n ih => rw [hexDigits, List.length_cons, ih]

/-- Digits are read as the value that they were written for, as far as there are enough of them. -/
theorem hexValue_hexDigits (n v acc : Nat) :
    hexValue acc (hexDigits n v) = acc * 16 ^ n + v % 16 ^ n := by
  have hdigit : ∀ d, d < 16 → hexAlphabet.idxOf d.digitChar = d := by decide
  induction n generalizing acc with
  | zero => simp [hexDigits, hexValue, Nat.mod_one]
  | succ n ih =>
    have hshift : v >>> (4 * n) = v / 16 ^ n := by
      rw [Nat.shiftRight_eq_div_pow, Nat.pow_mul]
    rw [hexDigits, hexValue, ih, hdigit _ (Nat.mod_lt _ (by decide)), hshift, Nat.mod_pow_succ,
      Nat.pow_succ]
    ring

/-- A form with digits is read as the character that it was written for. -/
theorem unescape_hexDigits {m c : Char} {n : Nat} (hm : hexWidth? m = some n)
    (hc : c.toNat < 16 ^ n) (t : Text) :
    unescape ('\\' :: m :: (hexDigits n c.toNat ++ t)) = some (c, t) := by
  have htake : (hexDigits n c.toNat ++ t).take n = hexDigits n c.toNat := by
    rw [List.take_append_of_le_length (Nat.le_of_eq (length_hexDigits n _).symm),
      List.take_of_length_le (Nat.le_of_eq (length_hexDigits n _))]
  have hdrop : (hexDigits n c.toNat ++ t).drop n = t := by
    rw [List.drop_append, length_hexDigits, Nat.sub_self,
      List.drop_of_length_le (Nat.le_of_eq (length_hexDigits n _))]
    rfl
  have hvalue : hexValue 0 (hexDigits n c.toNat) = c.toNat := by
    rw [hexValue_hexDigits, Nat.zero_mul, Nat.zero_add, Nat.mod_eq_of_lt hc]
  rw [unescape, if_pos rfl]
  simp only [hm, htake, hdrop, hvalue, Char.ofNat_toNat]

/-- **Quoted text is read from the front.**  The form of a character ends where it ends, whatever
is behind it. -/
theorem unescape_escape {q : Char} (hq : q = '"' ∨ q = '\'') (c : Char) (t : Text) :
    unescape (escape q c ++ t) = some (c, t) := by
  have hmarked : ∀ m, hexWidth? m = none → unescape (['\\', m] ++ t) = some (unmarked m, t) := by
    intro m hm
    show unescape ('\\' :: m :: t) = _
    rw [unescape, if_pos rfl]
    simp only [hm]
  have hlarge : c.toNat < 16 ^ 8 := by
    have hvalid := c.valid
    simp only [UInt32.isValidChar, Nat.isValidChar] at hvalid
    have htoNat : c.toNat = c.val.toNat := rfl
    omega
  unfold escape
  split
  · next hc =>
    subst hc
    rcases hq with rfl | rfl
    · exact hmarked _ rfl
    · exact hmarked _ rfl
  split
  · next hc =>
    subst hc
    exact hmarked _ rfl
  next hbackslash =>
  split
  · next hc =>
    subst hc
    exact hmarked _ rfl
  split
  · next hc =>
    subst hc
    exact hmarked _ rfl
  split
  · next hc =>
    subst hc
    exact hmarked _ rfl
  split
  · show unescape (c :: t) = _
    simp only [unescape, if_neg hbackslash]
  split
  · next hc => exact unescape_hexDigits rfl hc t
  split
  · next hc => exact unescape_hexDigits rfl hc t
  · exact unescape_hexDigits rfl hlarge t

theorem flatMap_escape_injective {q : Char} (hq : q = '"' ∨ q = '\'') {t u : Text}
    (h : t.flatMap (escape q) = u.flatMap (escape q)) : t = u := by
  have hread := congrArg unescape h
  induction t generalizing u with
  | nil =>
    cases u with
    | nil => rfl
    | cons d u =>
      rw [List.flatMap_cons, unescape_escape hq] at hread
      cases hread
  | cons c t ih =>
    rw [List.flatMap_cons, unescape_escape hq] at hread
    cases u with
    | nil => cases hread
    | cons d u =>
      rw [List.flatMap_cons, unescape_escape hq] at hread
      obtain ⟨rfl, hrest⟩ := Prod.mk.inj (Option.some.inj hread)
      rw [ih hrest (congrArg unescape hrest)]

/-- A text can be told from its quoted form. -/
theorem quoted_injective {t u : Text} (h : quoted t = quoted u) : t = u := by
  rw [quoted, quoted, List.cons.injEq] at h
  obtain ⟨hmark, hbody⟩ := h
  rw [hmark] at hbody
  exact flatMap_escape_injective (quoteMark_eq u) (List.append_cancel_right hbody)

end Text

namespace Token

/-! ## Fields -/

/-- What both forms of a token have in front of the closing bracket. -/
def fields (mark : Text) (k : Kind) (shown : Text) (line : Int) : Text :=
  mark ++ k.name ++ ", ".toList ++ shown ++ ", ".toList ++ Text.ofInt line

/-- Whatever is shown between the separators, the first and the last one can be told. -/
theorem fields_injective {mark : Text} (hmark : ',' ∉ mark) {j k : Kind} {x y : Text} {m n : Int}
    (h : fields mark j x m = fields mark k y n) : j = k ∧ x = y ∧ m = n := by
  have hcut : ∀ (k : Kind) (x : Text) (n : Int),
      fields mark k x n =
        (mark ++ k.name) ++ ',' :: ((' ' :: x ++ [',']) ++ ' ' :: Text.ofInt n) := by
    intro k x n
    simp [fields]
  rw [hcut, hcut] at h
  have hfirst : ∀ k : Kind, ',' ∉ mark ++ k.name := by
    intro k
    exact List.not_mem_append hmark (k.not_mem_name (by decide))
  have hlast : ∀ n : Int, ' ' ∉ Text.ofInt n := Text.not_mem_ofInt (by decide) (by decide)
  obtain ⟨hname, hrest⟩ := Text.cut_at_first (hfirst j) (hfirst k) h
  obtain ⟨hshown, hline⟩ := Text.cut_at_last (hlast m) (hlast n) hrest
  have hlexeme := List.append_cancel_right hshown
  exact ⟨Kind.name_injective (List.append_cancel_left hname), List.tail_eq_of_cons_eq hlexeme,
    Text.ofInt_injective hline⟩

theorem render_injective {t u : Token} (h : t.render = u.render) : t = u := by
  have hfields : fields "Token<".toList t.kind t.lexeme t.line =
      fields "Token<".toList u.kind u.lexeme u.line := List.append_cancel_right h
  obtain ⟨hkind, hlexeme, hline⟩ := fields_injective (by decide) hfields
  cases t
  cases u
  simp only [Token.mk.injEq]
  exact ⟨hkind, hlexeme, hline⟩

theorem describe_injective {t u : Token} (h : t.describe = u.describe) : t = u := by
  have hfields : fields "Token(".toList t.kind (Text.quoted t.lexeme) t.line =
      fields "Token(".toList u.kind (Text.quoted u.lexeme) u.line := List.append_cancel_right h
  obtain ⟨hkind, hquoted, hline⟩ := fields_injective (by decide) hfields
  cases t
  cases u
  simp only [Token.mk.injEq]
  exact ⟨hkind, Text.quoted_injective hquoted, hline⟩

theorem lineFeed_not_mem_describe (t : Token) : '\n' ∉ t.describe := by
  have hseparator : '\n' ∉ ", ".toList := by decide
  have hkind : '\n' ∉ "Token(".toList ++ t.kind.name :=
    List.not_mem_append (by decide) (t.kind.not_mem_name (by decide))
  have hlexeme := List.not_mem_append (List.not_mem_append hkind hseparator)
    (Text.lineFeed_not_mem_quoted t.lexeme)
  have hline := List.not_mem_append (List.not_mem_append hlexeme hseparator)
    (Text.not_mem_ofInt (by decide) (by decide) t.line)
  exact List.not_mem_append hline (by decide)

/-- **Printed tokens determine the token**, be it printed with the lexeme as it stands or with the
lexeme quoted, whatever its kind, its lexeme and its line are.  The form with the quoted lexeme is
one line. -/
theorem render_and_describe_injective (t u : Token) :
    (t.render = u.render ↔ t = u) ∧ (t.describe = u.describe ↔ t = u) ∧ '\n' ∉ t.describe :=
  ⟨⟨render_injective, congrArg render⟩, ⟨describe_injective, congrArg describe⟩,
    t.lineFeed_not_mem_describe⟩

/-- A lexeme with a line feed, and with what looks like the end of a token. -/
example : (Token.mk .string "a, 1>\nToken<STRING, b".toList 2).describe =
    "Token(STRING, 'a, 1>\\nToken<STRING, b', 2)".toList := by
  decide +kernel

end Token

end LoxLexer
