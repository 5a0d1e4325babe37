import LoxLexer.Encoding.Utf8

/-!
# UTF-8, both ways

Decoding and encoding undo each other.  Between the two stands `Sequence`, the
table of well-formed sequences: a first byte, the bytes that may follow it, and
the character that they are.

    p.CompletedBy bs → bs is read behind p as one character             (decodeFrom_of_completedBy)
    what is read behind p starts with bytes that complete it                (exists_completedBy)
    lead? b = some p → p.CompletedBy bs → Sequence b bs (p.finish bs)       (sequence_finish)
    Sequence b bs n → encodeChar (Char.ofNat n) = b :: bs                   (Sequence.encodeChar_eq)
    decode bs = .ok t ↔ encode t = bs                                       (decode_eq_ok_iff)
-/

namespace LoxLexer.Encoding.Utf8

/-! ## Completing a character -/

/-- A partial character with one more byte. -/
def Partial.push (p : Partial) (b : UInt8) : Partial :=
  ⟨p.first, p.used + 1, p.more - 1, 0x80, 0xBF, p.value * 64 + (b.toNat - 0x80)⟩

/-- The value of a partial character with the bits of further bytes. -/
def Partial.finish (p : Partial) (bs : Bytes) : Nat := (bs.foldl push p).value

/-- Every byte but the first of a sequence. -/
def IsContinuation (b : UInt8) : Prop := 0x80 ≤ b.toNat ∧ b.toNat ≤ 0xBF

/-- What has to follow a partial character to make it whole: as many continuation bytes as are
still to come, the first of them between the bounds. -/
def Partial.CompletedBy (p : Partial) : Bytes → Prop
  | [] => False
  | b :: bs =>
    (p.low.toNat ≤ b.toNat ∧ b.toNat ≤ p.high.toNat) ∧ bs.length = p.more ∧
      ∀ c ∈ bs, IsContinuation c

section
variable {p : Partial} {b : UInt8} {position : Nat} {acc : Text}

theorem decodeFrom_push (hb : p.low.toNat ≤ b.toNat ∧ b.toNat ≤ p.high.toNat) (bs : Bytes) :
    decodeFrom (some p) position acc (b :: bs) =
      if p.more = 0 then decodeFrom none (position + 1) (Char.ofNat (p.push b).value :: acc) bs
      else decodeFrom (some (p.push b)) (position + 1) acc bs := by
  obtain ⟨first, used, more, low, high, value⟩ := p
  rw [decodeFrom, if_pos (by simpa [UInt8.le_iff_toNat_le] using hb)]
  cases more with
  | zero => rfl
  | succ more => rfl

theorem decodeFrom_of_not_bounds (hb : ¬ (p.low.toNat ≤ b.toNat ∧ b.toNat ≤ p.high.toNat))
    (bs : Bytes) :
    decodeFrom (some p) position acc (b :: bs) =
      .error (p.malformed position .invalidContinuation) := by
  rw [decodeFrom, if_neg (by simpa [UInt8.le_iff_toNat_le] using hb)]

theorem Partial.completedBy_cons {more : Nat} (hmore : p.more = more + 1)
    (hb : p.low.toNat ≤ b.toNat ∧ b.toNat ≤ p.high.toNat) (bs : Bytes) :
    p.CompletedBy (b :: bs) ↔ (p.push b).CompletedBy bs := by
  cases bs with
  | nil => simp [CompletedBy, hmore]
  | cons c bs =>
    simp [CompletedBy, push, IsContinuation, hmore, hb, and_left_comm]

/-- Bytes that make a partial character whole are read as that character. -/
theorem decodeFrom_of_completedBy {bs : Bytes} (h : p.CompletedBy bs) (rest : Bytes) :
    decodeFrom (some p) position acc (bs ++ rest) =
      decodeFrom none (position + bs.length) (Char.ofNat (p.finish bs) :: acc) rest := by
  induction bs generalizing p position with
  | nil => exact h.elim
  | cons b bs ih =>
    have hfinish : p.finish (b :: bs) = (p.push b).finish bs := by
      rw [Partial.finish, Partial.finish, List.foldl_cons]
    rw [List.cons_append, decodeFrom_push h.1, hfinish]
    cases hmore : p.more with
    | zero =>
      have hbs : bs = [] := List.length_eq_zero_iff.mp (h.2.1.trans hmore)
      subst hbs
      rw [if_pos rfl, Partial.finish, List.foldl_nil]
      rfl
    | succ more =>
      rw [if_neg (Nat.succ_ne_zero more), ih ((Partial.completedBy_cons hmore h.1 bs).mp h),
        List.length_cons, Nat.add_assoc, Nat.add_comm 1]

/-- Bytes that are read behind a partial character make it whole. -/
theorem exists_completedBy {bs : Bytes} {t : Text}
    (h : decodeFrom (some p) position acc bs = .ok t) :
    ∃ taken rest, bs = taken ++ rest ∧ p.CompletedBy taken := by
  induction bs generalizing p position with
  | nil => cases h
  | cons b bs ih =>
    by_cases hb : p.low.toNat ≤ b.toNat ∧ b.toNat ≤ p.high.toNat
    · rw [decodeFrom_push hb] at h
      cases hmore : p.more with
      | zero => exact ⟨[b], bs, rfl, hb, hmore.symm, by simp⟩
      | succ more =>
        rw [hmore, if_neg (Nat.succ_ne_zero more)] at h
        obtain ⟨taken, rest, rfl, htaken⟩ := ih h
        exact ⟨b :: taken, rest, rfl, (Partial.completedBy_cons hmore hb taken).mpr htaken⟩
    · rw [decodeFrom_of_not_bounds hb] at h
      cases h

end

/-! ## First bytes -/

/-- First bytes by the number of bytes behind them.  Below the first bound would be a longer form of
a character that has a shorter one, above the second a surrogate or nothing at all. -/
def leadByWidth (b : UInt8) : Option Partial :=
  let n := b.toNat
  if 0xC2 ≤ n ∧ n ≤ 0xDF then some ⟨b, 1, 0, 0x80, 0xBF, n - 0xC0⟩
  else if 0xE0 ≤ n ∧ n ≤ 0xEF then
    some ⟨b, 1, 1, if n = 0xE0 then 0xA0 else 0x80, if n = 0xED then 0x9F else 0xBF, n - 0xE0⟩
  else if 0xF0 ≤ n ∧ n ≤ 0xF4 then
    some ⟨b, 1, 2, if n = 0xF0 then 0x90 else 0x80, if n = 0xF4 then 0x8F else 0xBF, n - 0xF0⟩
  else none

theorem lead?_eq (b : UInt8) : lead? b = leadByWidth b := by
  have key : ∀ n, n < 256 → lead? (UInt8.ofNat n) = leadByWidth (UInt8.ofNat n) := by
    decide +kernel
  have hb := key b.toNat b.toNat_lt
  rwa [UInt8.ofNat_toNat] at hb

section
variable {q : Prop} [Decidable q] {bound c : UInt8}

theorem low_le_iff (h : 0x80 ≤ bound.toNat) :
    (if q then bound else 0x80).toNat ≤ c.toNat ↔
      0x80 ≤ c.toNat ∧ (q → bound.toNat ≤ c.toNat) := by
  split
  · next hq => exact ⟨fun hc => ⟨Nat.le_trans h hc, fun _ => hc⟩, fun hc => hc.2 hq⟩
  · next hq => exact ⟨fun hc => ⟨hc, fun h => absurd h hq⟩, fun hc => hc.1⟩

theorem le_high_iff (h : bound.toNat ≤ 0xBF) :
    c.toNat ≤ (if q then bound else 0xBF).toNat ↔
      c.toNat ≤ 0xBF ∧ (q → c.toNat ≤ bound.toNat) := by
  split
  · next hq => exact ⟨fun hc => ⟨Nat.le_trans hc h, fun _ => hc⟩, fun hc => hc.2 hq⟩
  · next hq => exact ⟨fun hc => ⟨hc, fun h => absurd h hq⟩, fun hc => hc.1⟩

end

theorem toNat_ofNat {n : Nat} (h : n.isValidChar) : (Char.ofNat n).toNat = n := by
  rw [Char.ofNat, dif_pos h]
  rfl

theorem toNat_byte {n : Nat} (h : n < 256) : (UInt8.ofNat n).toNat = n := by
  rw [UInt8.toNat_ofNat']
  exact Nat.mod_eq_of_lt h

theorem ofNat_eq_of_toNat {n : Nat} {b : UInt8} (h : n = b.toNat) : UInt8.ofNat n = b := by
  rw [h, UInt8.ofNat_toNat]

/-- The bytes of a character by their values. -/
theorem encodeChar_ofNat {n : Nat} (h : n.isValidChar) :
    encodeChar (Char.ofNat n) =
      if n < 0x80 then [UInt8.ofNat n]
      else if n < 0x800 then [UInt8.ofNat (0xC0 + n / 64), UInt8.ofNat (0x80 + n % 64)]
      else if n < 0x10000 then
        [UInt8.ofNat (0xE0 + n / 4096), UInt8.ofNat (0x80 + n / 64 % 64),
         UInt8.ofNat (0x80 + n % 64)]
      else
        [UInt8.ofNat (0xF0 + n / 262144), UInt8.ofNat (0x80 + n / 4096 % 64),
         UInt8.ofNat (0x80 + n / 64 % 64), UInt8.ofNat (0x80 + n % 64)] := by
  rw [encodeChar, toNat_ofNat h]

/-! ## Well-formed sequences -/

/-- A first byte, the bytes behind it, and the character they stand for: the shortest form of every
character above U+007F that is no surrogate. -/
inductive Sequence (b : UInt8) : Bytes → Nat → Prop
  | two {c : UInt8} {n : Nat} (hb : 0xC2 ≤ b.toNat ∧ b.toNat ≤ 0xDF) (hc : IsContinuation c)
    (hn : n = (b.toNat - 0xC0) * 64 + (c.toNat - 0x80)) : Sequence b [c] n
  | three {c d : UInt8} {n : Nat} (hb : 0xE0 ≤ b.toNat ∧ b.toNat ≤ 0xEF) (hc : IsContinuation c)
    (hlow : b.toNat = 0xE0 → 0xA0 ≤ c.toNat) (hhigh : b.toNat = 0xED → c.toNat ≤ 0x9F)
    (hd : IsContinuation d)
    (hn : n = ((b.toNat - 0xE0) * 64 + (c.toNat - 0x80)) * 64 + (d.toNat - 0x80)) :
    Sequence b [c, d] n
  | four {c d e : UInt8} {n : Nat} (hb : 0xF0 ≤ b.toNat ∧ b.toNat ≤ 0xF4) (hc : IsContinuation c)
    (hlow : b.toNat = 0xF0 → 0x90 ≤ c.toNat) (hhigh : b.toNat = 0xF4 → c.toNat ≤ 0x8F)
    (hd : IsContinuation d) (he : IsContinuation e)
    (hn : n = (((b.toNat - 0xF0) * 64 + (c.toNat - 0x80)) * 64 + (d.toNat - 0x80)) * 64 +
      (e.toNat - 0x80)) :
    Sequence b [c, d, e] n

theorem Sequence.encodeChar_eq {b : UInt8} {bs : Bytes} {n : Nat} (h : Sequence b bs n) :
    encodeChar (Char.ofNat n) = b :: bs := by
  cases h with
  | @two c n hb hc hn =>
    unfold IsContinuation at hc
    rw [encodeChar_ofNat (by unfold Nat.isValidChar; omega), if_neg (by omega), if_pos (by omega),
      ofNat_eq_of_toNat (b := b) (by omega), ofNat_eq_of_toNat (b := c) (by omega)]
  | @three c d n hb hc hlow hhigh hd hn =>
    unfold IsContinuation at hc hd
    rw [encodeChar_ofNat (by unfold Nat.isValidChar; omega), if_neg (by omega), if_neg (by omega),
      if_pos (by omega), ofNat_eq_of_toNat (b := b) (by omega),
      ofNat_eq_of_toNat (b := c) (by omega), ofNat_eq_of_toNat (b := d) (by omega)]
  | @four c d e n hb hc hlow hhigh hd he hn =>
    unfold IsContinuation at hc hd he
    rw [encodeChar_ofNat (by unfold Nat.isValidChar; omega), if_neg (by omega), if_neg (by omega),
      if_neg (by omega), ofNat_eq_of_toNat (b := b) (by omega),
      ofNat_eq_of_toNat (b := c) (by omega), ofNat_eq_of_toNat (b := d) (by omega),
      ofNat_eq_of_toNat (b := e) (by omega)]

/-- Every character above U+007F has a well-formed sequence. -/
theorem exists_sequence {n : Nat} (hvalid : n.isValidChar) (hn : 0x80 ≤ n) :
    ∃ b bs, Sequence b bs n := by
  unfold Nat.isValidChar at hvalid
  have byte : ∀ m, m < 256 → ∃ b : UInt8, b.toNat = m := fun m hm => ⟨.ofNat m, toNat_byte hm⟩
  obtain ⟨e, he⟩ := byte (0x80 + n % 64) (by omega)
  obtain ⟨d, hd⟩ := byte (0x80 + n / 64 % 64) (by omega)
  by_cases h2 : n < 0x800
  · obtain ⟨b, hb⟩ := byte (0xC0 + n / 64) (by omega)
    exact ⟨b, [e], .two (by omega) (by unfold IsContinuation; omega) (by omega)⟩
  · by_cases h3 : n < 0x10000
    · obtain ⟨b, hb⟩ := byte (0xE0 + n / 4096) (by omega)
      exact ⟨b, [d, e], .three (by omega) (by unfold IsContinuation; omega) (by omega) (by omega)
        (by unfold IsContinuation; omega) (by omega)⟩
    · obtain ⟨b, hb⟩ := byte (0xF0 + n / 262144) (by omega)
      obtain ⟨c, hc⟩ := byte (0x80 + n / 4096 % 64) (by omega)
      exact ⟨b, [c, d, e], .four (by omega) (by unfold IsContinuation; omega) (by omega) (by omega)
        (by unfold IsContinuation; omega) (by unfold IsContinuation; omega) (by omega)⟩

/-- A first byte and the bytes that complete it are a well-formed sequence. -/
theorem sequence_finish {b : UInt8} {p : Partial} {bs : Bytes} (hlead : lead? b = some p)
    (h : p.CompletedBy bs) : Sequence b bs (p.finish bs) := by
  cases bs with
  | nil => exact h.elim
  | cons c bs =>
    obtain ⟨⟨hlow, hhigh⟩, hlength, hmore⟩ := h
    rw [lead?_eq, leadByWidth] at hlead
    split at hlead
    · next hb =>
      cases hlead
      obtain rfl : bs = [] := List.length_eq_zero_iff.mp hlength
      exact .two hb ⟨hlow, hhigh⟩ rfl
    · split at hlead
      · next hb =>
        cases hlead
        obtain ⟨d, rfl⟩ := List.length_eq_one_iff.mp hlength
        obtain ⟨hlow, hE0⟩ := (low_le_iff (by decide)).mp hlow
        obtain ⟨hhigh, hED⟩ := (le_high_iff (by decide)).mp hhigh
        exact .three hb ⟨hlow, hhigh⟩ hE0 hED (hmore d (by simp)) rfl
      · split at hlead
        · next hb =>
          cases hlead
          obtain _ | ⟨d, _ | ⟨e, _ | ⟨f, bs⟩⟩⟩ := bs <;> try cases hlength
          obtain ⟨hlow, hF0⟩ := (low_le_iff (by decide)).mp hlow
          obtain ⟨hhigh, hF4⟩ := (le_high_iff (by decide)).mp hhigh
          exact .four hb ⟨hlow, hhigh⟩ hF0 hF4 (hmore d (by simp)) (hmore e (by simp)) rfl
        · cases hlead

theorem Sequence.exists_lead? {b : UInt8} {bs : Bytes} {n : Nat} (h : Sequence b bs n) :
    ∃ p, lead? b = some p ∧ p.CompletedBy bs ∧ p.finish bs = n := by
  rw [lead?_eq, leadByWidth]
  cases h with
  | two hb hc hn => exact ⟨_, if_pos hb, ⟨hc, rfl, by simp⟩, hn.symm⟩
  | three hb hc hlow hhigh hd hn =>
    rw [if_neg (by omega), if_pos hb]
    exact ⟨_, rfl, ⟨⟨(low_le_iff (by decide)).mpr ⟨hc.1, hlow⟩,
      (le_high_iff (by decide)).mpr ⟨hc.2, hhigh⟩⟩, rfl, by simpa using hd⟩, hn.symm⟩
  | four hb hc hlow hhigh hd he hn =>
    rw [if_neg (by omega), if_neg (by omega), if_pos hb]
    exact ⟨_, rfl, ⟨⟨(low_le_iff (by decide)).mpr ⟨hc.1, hlow⟩,
      (le_high_iff (by decide)).mpr ⟨hc.2, hhigh⟩⟩, rfl, by simpa using ⟨hd, he⟩⟩, hn.symm⟩

/-- A byte above 0x7F that starts something is no character by itself. -/
theorem not_lt_of_lead? {b : UInt8} {p : Partial} (h : lead? b = some p) : ¬ b < 0x80 := by
  intro hb
  have hlt : b < 0xC2 := UInt8.lt_trans hb (by decide)
  rw [lead?, if_pos hlt] at h
  cases h

/-! ## Decoding and encoding -/

section
variable {position : Nat} {acc : Text}

theorem decodeFrom_of_lead? {b : UInt8} {p : Partial} (h : lead? b = some p) (bs : Bytes) :
    decodeFrom none position acc (b :: bs) = decodeFrom (some p) (position + 1) acc bs := by
  rw [decodeFrom, if_neg (not_lt_of_lead? h), h]

theorem decodeFrom_encodeChar (c : Char) (bs : Bytes) :
    ∃ position', decodeFrom none position acc (encodeChar c ++ bs) =
      decodeFrom none position' (c :: acc) bs := by
  by_cases hc : c.toNat < 0x80
  · have hb : (UInt8.ofNat c.toNat).toNat = c.toNat := toNat_byte (by omega)
    refine ⟨position + 1, ?_⟩
    rw [encodeChar, if_pos hc, List.singleton_append, decodeFrom,
      if_pos (UInt8.lt_iff_toNat_lt.mpr (hb.symm ▸ hc)), hb, Char.ofNat_toNat]
  · have hvalid : c.toNat.isValidChar := c.valid
    obtain ⟨b, taken, hsequence⟩ := exists_sequence hvalid (Nat.le_of_not_lt hc)
    obtain ⟨p, hlead, hcompleted, hfinish⟩ := hsequence.exists_lead?
    have hencode := hsequence.encodeChar_eq
    rw [Char.ofNat_toNat] at hencode
    refine ⟨position + 1 + taken.length, ?_⟩
    rw [hencode, List.cons_append, decodeFrom_of_lead? hlead,
      decodeFrom_of_completedBy hcompleted, hfinish, Char.ofNat_toNat]

theorem decodeFrom_encode (t : Text) :
    decodeFrom none position acc (encode t) = .ok (acc.reverse ++ t) := by
  induction t generalizing position acc with
  | nil => rw [encode_nil, decodeFrom, List.append_nil]
  | cons c t ih =>
    obtain ⟨position', hchar⟩ := @decodeFrom_encodeChar position acc c (encode t)
    rw [encode_cons, hchar, ih]
    simp

/-- Bytes that are decoded are the bytes of what they are decoded to.  The induction is on how many
there are, since one character takes up to four of them. -/
theorem exists_encode_eq {bs : Bytes} {t : Text} (h : decodeFrom none position acc bs = .ok t) :
    ∃ s, t = acc.reverse ++ s ∧ encode s = bs := by
  induction hlength : bs.length using Nat.strongRecOn generalizing bs position acc with
  | _ n ih =>
    subst hlength
    cases bs with
    | nil =>
      rw [decodeFrom] at h
      exact ⟨[], by simpa using h.symm, rfl⟩
    | cons b bs =>
      by_cases hb : b < 0x80
      · rw [decodeFrom, if_pos hb] at h
        obtain ⟨s, ht, hs⟩ := ih _ (by simp) h rfl
        have hlt : b.toNat < 0x80 := UInt8.lt_iff_toNat_lt.mp hb
        refine ⟨Char.ofNat b.toNat :: s, by simpa using ht, ?_⟩
        rw [encode_cons, hs, encodeChar_ofNat (by unfold Nat.isValidChar; omega), if_pos hlt,
          UInt8.ofNat_toNat]
        rfl
      · cases hlead : lead? b with
        | none =>
          rw [decodeFrom, if_neg hb, hlead] at h
          cases h
        | some p =>
          rw [decodeFrom_of_lead? hlead] at h
          obtain ⟨taken, rest, rfl, hcompleted⟩ := exists_completedBy h
          rw [decodeFrom_of_completedBy hcompleted] at h
          have hshorter : rest.length < (b :: (taken ++ rest)).length := by
            simp only [List.length_cons, List.length_append]
            omega
          obtain ⟨s, ht, hs⟩ := ih _ hshorter h rfl
          refine ⟨Char.ofNat (p.finish taken) :: s, by simpa using ht, ?_⟩
          rw [encode_cons, hs, (sequence_finish hlead hcompleted).encodeChar_eq]
          rfl

end

theorem decode_encode (t : Text) : decode (encode t) = .ok t := by
  rw [decode, decodeFrom_encode]
  rfl

/-- **Strict UTF-8.**  Bytes are decoded to a text just when they are its encoding. -/
theorem decode_eq_ok_iff {bs : Bytes} {t : Text} : decode bs = .ok t ↔ encode t = bs := by
  constructor
  · intro h
    obtain ⟨s, ht, hs⟩ := exists_encode_eq h
    rw [ht]
    exact hs
  · rintro rfl
    exact decode_encode t

theorem exists_decode_eq_error_iff {bs : Bytes} :
    (∃ m, decode bs = .error m) ↔ ∀ t, encode t ≠ bs := by
  constructor
  · rintro ⟨m, hm⟩ t ht
    rw [decode_eq_ok_iff.mpr ht] at hm
    cases hm
  · intro h
    cases hd : decode bs with
    | error m => exact ⟨m, rfl⟩
    | ok t => exact absurd (decode_eq_ok_iff.mp hd) (h t)

theorem encodeChar_eq_utf8EncodeChar (c : Char) : encodeChar c = String.utf8EncodeChar c := by
  have hn : c.val.toNat < 1114112 := by
    have hvalid := c.valid
    unfold UInt32.isValidChar Nat.isValidChar at hvalid
    omega
  unfold encodeChar String.utf8EncodeChar
  simp only [Char.toNat]
  generalize c.val.toNat = n at hn ⊢
  repeat' split
  all_goals first | omega | skip
  · rfl
  · rw [Nat.mod_eq_of_lt (show n / 64 < 32 by omega), Nat.add_comm 0xC0, Nat.add_comm 0x80]
  · rw [Nat.mod_eq_of_lt (show n / 4096 < 16 by omega), Nat.add_comm 0xE0,
      Nat.add_comm 0x80 (n / 64 % 64), Nat.add_comm 0x80]
  · rw [Nat.mod_eq_of_lt (show n / 262144 < 8 by omega), Nat.add_comm 0xF0,
      Nat.add_comm 0x80 (n / 4096 % 64), Nat.add_comm 0x80 (n / 64 % 64), Nat.add_comm 0x80]

/-- The bytes of a text are those of the standard library. -/
theorem encode_eq_flatMap (t : Text) : encode t = t.flatMap String.utf8EncodeChar := by
  rw [encode, funext encodeChar_eq_utf8EncodeChar]

end LoxLexer.Encoding.Utf8
