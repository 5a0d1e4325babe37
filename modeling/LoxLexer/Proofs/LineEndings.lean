import Mathlib.Data.List.Forall2
import LoxLexer.Input
import LoxLexer.Proofs.Lookahead
import LoxLexer.Proofs.SourceLines

/-!
# Line endings

A carriage return in front of every line feed changes nothing but the texts that
hold line feeds themselves.  Between tokens it is a space like the line feed, a
comment to the end of the line leaves it out, and a word, an operator or an end
mark ends in front of the one as in front of the other.

    Lexed.read logical c r.crlf = (Lexed.read logical c r).crlf      (Lexed.read_crlf)
    calls yield events that correspond, at places that correspond    (Crlf.next)
    so do whole runs                                                 (events_crlf)
-/

namespace LoxLexer

/-! ## Texts with carriage returns -/

theorem ne_of_not_isSpace {c : Char} (hc : isSpace c = false) : c ≠ '\n' ∧ c ≠ '\r' := by
  constructor
  all_goals
    rintro rfl
    cases hc

namespace Text

/-- The text with a carriage return in front of every line feed. -/
def crlf (t : Text) : Text := t.flatMap fun c => if c = '\n' then ['\r', '\n'] else [c]

/-- The first character that comes in place of a character. -/
def crlfHead (c : Char) : Char := if c = '\n' then '\r' else c

variable {a c : Char} {t : Text}

@[simp] theorem crlf_nil : crlf [] = [] := rfl

@[simp] theorem crlf_lineFeed (t : Text) : crlf ('\n' :: t) = '\r' :: '\n' :: crlf t := rfl

@[simp] theorem crlf_cons (h : c ≠ '\n') (t : Text) : crlf (c :: t) = c :: crlf t := by
  simp [crlf, h]

theorem crlf_append (s t : Text) : crlf (s ++ t) = crlf s ++ crlf t := List.flatMap_append

/-- Every character is a line feed or stays as it is. -/
theorem crlf_induction {motive : Text → Prop} (nil : motive [])
    (lineFeed : ∀ t, motive t → motive ('\n' :: t))
    (cons : ∀ c t, c ≠ '\n' → motive t → motive (c :: t)) (t : Text) : motive t := by
  induction t with
  | nil => exact nil
  | cons c t ih =>
    by_cases h : c = '\n'
    · subst h
      exact lineFeed t ih
    · exact cons c t h ih

theorem crlf_of_not_mem (h : '\n' ∉ t) : crlf t = t := by
  induction t with
  | nil => rfl
  | cons c t ih =>
    obtain ⟨hc, ht⟩ := List.ne_and_not_mem_of_not_mem_cons h
    rw [crlf_cons hc.symm, ih ht]

theorem head?_crlf (t : Text) : (crlf t).head? = t.head?.map crlfHead := by
  cases t with
  | nil => rfl
  | cons c t =>
    by_cases h : c = '\n'
    · subst h
      rfl
    · rw [crlf_cons h]
      simp [crlfHead, h]

theorem crlf_eq_nil_iff : crlf t = [] ↔ t = [] := by
  rw [← List.head?_eq_none_iff, head?_crlf, Option.map_eq_none_iff, List.head?_eq_none_iff]

/-- A character that no line ends with is at the front of both texts or of none. -/
theorem head?_crlf_eq_some_iff (h : isSpace a = false) :
    (crlf t).head? = some a ↔ t.head? = some a := by
  obtain ⟨hlineFeed, hreturn⟩ := ne_of_not_isSpace h
  cases t with
  | nil => rfl
  | cons c t =>
    by_cases hc : c = '\n'
    · subst hc
      simp [hlineFeed.symm, hreturn.symm]
    · rw [crlf_cons hc]
      rfl

theorem mem_crlf_iff (h : a ≠ '\r') : a ∈ crlf t ↔ a ∈ t := by
  induction t using crlf_induction with
  | nil => rfl
  | lineFeed t ih => simp [h, ih]
  | cons c t hc ih => simp [hc, ih]

theorem count_crlf (t : Text) : (crlf t).count '\n' = t.count '\n' := by
  induction t using crlf_induction with
  | nil => rfl
  | lineFeed t ih => simp [ih]
  | cons c t hc ih => simp [hc, ih, List.count_cons_of_ne hc]

section
variable {p : Char → Bool} (hp : p '\r' = p '\n')

include hp

theorem takeWhile_crlf (t : Text) : (crlf t).takeWhile p = crlf (t.takeWhile p) := by
  induction t using crlf_induction with
  | nil => rfl
  | lineFeed t ih => cases h : p '\n' <;> simp [hp, h, ih]
  | cons c t hc ih => cases h : p c <;> simp [hc, h, ih]

theorem dropWhile_crlf (t : Text) : (crlf t).dropWhile p = crlf (t.dropWhile p) := by
  induction t using crlf_induction with
  | nil => rfl
  | lineFeed t ih => cases h : p '\n' <;> simp [hp, h, ih]
  | cons c t hc ih => cases h : p c <;> simp [hc, h, ih]

end

/-- The lines of the two texts are the same, up to the carriage returns that end them. -/
theorem lines_crlf (t : Text) :
    List.Forall₂ (fun u v => v = u ∨ v = u ++ ['\r']) t.lines (crlf t).lines := by
  induction t using crlf_induction with
  | nil => exact .cons (Or.inl rfl) .nil
  | lineFeed t ih => exact .cons (Or.inr rfl) ih
  | cons c t hc ih =>
    obtain ⟨p, ps, hp, hcp⟩ := pieces_cons hc t
    obtain ⟨q, qs, hq, hcq⟩ := pieces_cons hc (crlf t)
    rw [lines, lines, hp, hq] at ih
    obtain ⟨hpq, hrest⟩ := List.forall₂_cons.mp ih
    rw [crlf_cons hc, lines, lines, hcp, hcq]
    refine .cons ?_ hrest
    rcases hpq with rfl | rfl
    · exact Or.inl rfl
    · exact Or.inr rfl

end Text

/-! ## Readings -/

/-- The cause of the error in the text with carriage returns. -/
def Cause.crlf : Cause → Cause
  | .unpairedOperator operator found =>
    .unpairedOperator operator (found.map fun t => t.map Text.crlfHead)
  | cause => cause

def Item.crlf : Item → Item
  | .token kind lexeme => .token kind lexeme.crlf
  | .fault cause => .fault cause.crlf

def Lexed.crlf (x : Lexed) : Lexed := ⟨x.item.crlf, x.taken.crlf, x.rest.crlf⟩

theorem joinsWord_crlf (c : Char) (r : Text) : joinsWord c r.crlf = joinsWord c r := by
  refine joinsWord_congr ?_
  rw [Text.head?_crlf]
  cases r.head? with
  | none => rfl
  | some d =>
    by_cases hd : d = '\n'
    · subst hd
      rfl
    · simp [Text.crlfHead, hd]

/-- A carriage return ends a word where the line feed did. -/
theorem spanWord_crlf (t : Text) : spanWord t.crlf = ((spanWord t).1, (spanWord t).2.crlf) := by
  induction t using Text.crlf_induction with
  | nil => rfl
  | lineFeed t _ =>
    have hspace : ∀ c s, isSpace c = true → spanWord (c :: s) = ([], c :: s) := fun c s hc =>
      spanWord_of_space (by simpa using hc)
    rw [Text.crlf_lineFeed, hspace '\r' _ rfl, hspace '\n' _ rfl]
    rfl
  | cons c t hc ih =>
    rw [Text.crlf_cons hc]
    cases hj : joinsWord c t with
    | true =>
      have hj' := (joinsWord_crlf c t).trans hj
      rw [spanWord_cons_of_joins hj, spanWord_cons_of_joins hj', ih]
    | false =>
      have hj' := (joinsWord_crlf c t).trans hj
      rw [spanWord_cons_of_not_joins hj, spanWord_cons_of_not_joins hj', Text.crlf_cons hc]

namespace Lexed

section
variable {c : Char} (hc : isSpace c = false)

include hc

theorem comparison_crlf (k k' : Kind) (r : Text) :
    comparison k k' c r.crlf = (comparison k k' c r).crlf := by
  by_cases h : r.head? = some '='
  · obtain ⟨t, rfl⟩ := List.head?_eq_some_iff.mp h
    simp [comparison, crlf, Item.crlf, (ne_of_not_isSpace hc).1]
  · have h' : r.crlf.head? ≠ some '=' := by rwa [ne_eq, Text.head?_crlf_eq_some_iff rfl]
    rw [comparison_of_head?_ne _ _ _ h, comparison_of_head?_ne _ _ _ h']
    simp [crlf, Item.crlf, (ne_of_not_isSpace hc).1]

theorem operator_crlf (k : Kind) (r : Text) : operator k c r.crlf = (operator k c r).crlf := by
  by_cases h : r.head? = some c
  · obtain ⟨t, rfl⟩ := List.head?_eq_some_iff.mp h
    simp [operator, crlf, Item.crlf, (ne_of_not_isSpace hc).1]
  · have h' : r.crlf.head? ≠ some c := by rwa [ne_eq, Text.head?_crlf_eq_some_iff hc]
    rw [operator_of_unpaired k h, operator_of_unpaired k h', Text.head?_crlf]
    cases r.head? <;> simp [crlf, Item.crlf, Cause.crlf, (ne_of_not_isSpace hc).1]

theorem word_crlf (r : Text) : word c r.crlf = (word c r).crlf := by
  have hne := (ne_of_not_isSpace hc).1
  have hspan := spanWord_crlf (c :: r)
  have hword : '\n' ∉ (spanWord (c :: r)).1 := (joined_spanWord (c :: r)).lineFeed_not_mem
  rw [Text.crlf_cons hne] at hspan
  cases h : spanWord (c :: r) with
  | mk w s =>
    rw [h] at hspan hword
    cases w with
    | nil =>
      simp only [word, h, hspan]
      simp [crlf, Item.crlf, Cause.crlf, hne]
    | cons d w =>
      simp only [word, h, hspan]
      split <;> simp [crlf, Item.crlf, Cause.crlf, Text.crlf_of_not_mem hword]

end

theorem string_crlf (r : Text) : string r.crlf = (string r).crlf := by
  by_cases h : '"' ∈ r
  · obtain ⟨x, t, rfl, hx⟩ := List.eq_append_cons_of_mem h
    have hx' : '"' ∉ Text.crlf x := by rwa [Text.mem_crlf_iff (by decide)]
    rw [Text.crlf_append, Text.crlf_cons (by decide), string_of_not_mem hx, string_of_not_mem hx']
    simp [crlf, Item.crlf, Text.crlf_append]
  · have h' : '"' ∉ r.crlf := by rwa [Text.mem_crlf_iff (by decide)]
    rw [string_of_unclosed h, string_of_unclosed h']
    simp [crlf, Item.crlf, Cause.crlf]

/-- The carriage return in front of the line feed is left out of the comment. -/
theorem lineComment_crlf {r : Text} (hr : '\r' ∉ r) :
    lineComment r.crlf = (lineComment r).crlf := by
  have htrim : ∀ b : Text, '\r' ∉ b → trimReturn b = b := by
    intro b hb
    rcases trimReturn_append b with h | h
    · exact h.symm
    · exact absurd (h ▸ List.mem_append_right _ (List.mem_singleton.mpr rfl)) hb
  by_cases h : '\n' ∈ r
  · obtain ⟨b, t, rfl, hb⟩ := List.eq_append_cons_of_mem h
    have hreturn : '\r' ∉ b := fun hmem => hr (List.mem_append_left _ hmem)
    have hb' : '\n' ∉ b ++ ['\r'] := by simp [hb]
    have hbody : Text.crlf (b ++ '\n' :: t) = (b ++ ['\r']) ++ '\n' :: Text.crlf t := by
      rw [Text.crlf_append, Text.crlf_of_not_mem hb]
      simp
    rw [hbody, lineComment_of_lineFeed hb, lineComment_of_lineFeed hb', trimReturn_append_return,
      htrim b hreturn]
    simp [crlf, Item.crlf, Text.crlf_append, Text.crlf_of_not_mem hb]
  · rw [Text.crlf_of_not_mem h, lineComment_of_not_mem h, htrim r hr]
    simp [crlf, Item.crlf, Text.crlf_of_not_mem h]

theorem untilClose_crlf (t : Text) :
    untilClose t.crlf = (untilClose t).map fun p => (Text.crlf p.1, Text.crlf p.2) := by
  have hne : ∀ c r, c ≠ '*' → untilClose (c :: r) = (untilClose r).map fun p => (c :: p.1, p.2) :=
    fun c r hc => untilClose_cons_of_not_close fun h => hc (endMark_prefix_iff.mp h).1
  induction t using Text.crlf_induction with
  | nil => rfl
  | lineFeed t ih =>
    rw [Text.crlf_lineFeed, hne _ _ (by decide), hne _ _ (by decide), hne _ _ (by decide), ih]
    simp [Function.comp_def]
  | cons c t hc ih =>
    have hmark : endMark <+: c :: t.crlf ↔ endMark <+: c :: t := by
      rw [endMark_prefix_iff, endMark_prefix_iff, Text.head?_crlf_eq_some_iff rfl]
    rw [Text.crlf_cons hc]
    by_cases h : endMark <+: c :: t
    · rw [untilClose_cons_of_close h, untilClose_cons_of_close (hmark.mpr h)]
      obtain ⟨s, rfl⟩ := List.head?_eq_some_iff.mp (endMark_prefix_iff.mp h).2
      simp
    · rw [untilClose_cons_of_not_close h, untilClose_cons_of_not_close (mt hmark.mp h), ih]
      simp [Function.comp_def, hc]

theorem blockComment_crlf (r : Text) : blockComment r.crlf = (blockComment r).crlf := by
  have hclose := untilClose_crlf r
  cases h : untilClose r with
  | none =>
    rw [h] at hclose
    rw [blockComment, blockComment, h, hclose]
    simp [crlf, Item.crlf, Cause.crlf]
  | some p =>
    rw [h] at hclose
    rw [blockComment, blockComment, h, hclose]
    simp [crlf, Item.crlf, Text.crlf_append]

theorem slash_crlf {r : Text} (hr : '\r' ∉ r) : slash r.crlf = (slash r).crlf := by
  by_cases hline : r.head? = some '/'
  · obtain ⟨t, rfl⟩ := List.head?_eq_some_iff.mp hline
    rw [Text.crlf_cons (by decide)]
    exact lineComment_crlf (List.not_mem_of_not_mem_cons hr)
  · by_cases hblock : r.head? = some '*'
    · obtain ⟨t, rfl⟩ := List.head?_eq_some_iff.mp hblock
      rw [Text.crlf_cons (by decide)]
      exact blockComment_crlf t
    · have hline' : r.crlf.head? ≠ some '/' := by rwa [ne_eq, Text.head?_crlf_eq_some_iff rfl]
      have hblock' : r.crlf.head? ≠ some '*' := by rwa [ne_eq, Text.head?_crlf_eq_some_iff rfl]
      rw [slash_of_head?_ne hline hblock, slash_of_head?_ne hline' hblock']
      rfl

/-- **One reading.**  In front of carriage returns and line feeds, the same is read as in front of
line feeds, up to the line feeds of its own text. -/
theorem read_crlf {logical : Bool} {c : Char} {r : Text} (hc : isSpace c = false) (hr : '\r' ∉ r) :
    read logical c r.crlf = (read logical c r).crlf := by
  rcases read_cases logical c with
    ⟨k, h⟩ | ⟨k, k', h⟩ | ⟨k, h⟩ | ⟨rfl, h⟩ | ⟨rfl, h⟩ | h
  all_goals rw [h]
  · simp [crlf, Item.crlf, (ne_of_not_isSpace hc).1]
  · exact comparison_crlf hc k k' r
  · exact operator_crlf hc k r
  · exact slash_crlf hr
  · exact string_crlf r
  · exact word_crlf hc r

end Lexed

/-- A lexeme holds a line feed only in a string or in a block comment. -/
theorem Spelling.lineFeed_not_mem {logical : Bool} {final : Prop} {k : Kind} {x w : Text}
    (h : Spelling logical final k x w) (hk : k ≠ .string) (hw : ¬ ['/', '*'] <+: w) :
    '\n' ∉ x := by
  have hstarts : ∀ {c}, Starts logical c → c ≠ '\n' := fun hc =>
    (ne_of_not_isSpace hc.not_isSpace).1
  cases h with
  | punctuation h => simpa using (hstarts (.punctuation h)).symm
  | single h => simpa using (hstarts (.comparison h)).symm
  | double h => simpa using (hstarts (.comparison h)).symm
  | divide => decide
  | operator hl h => simpa using (hstarts (.operator hl h)).symm
  | word h => exact (h.joined []).lineFeed_not_mem
  | string _ => exact absurd rfl hk
  | @lineComment b e hb he =>
    intro hmem
    refine hb ?_
    rcases trimReturn_append b with ht | ht
    · rwa [ht]
    · rw [ht]
      exact List.mem_append_left _ hmem
  | blockComment _ => exact absurd ⟨_, rfl⟩ hw

/-! ## Events -/

/-- `e.Crlf w e'`: the event `e'` of the text with carriage returns corresponds to the event `e`,
which takes `w` from the text. -/
inductive Event.Crlf (w : Text) : Event → Event → Prop
  /-- A string or a block comment holds the ends of its lines. -/
  | lines {k : Kind} {x : Text} {line : Int} :
      k = .string ∨ ['/', '*'] <+: w → Crlf w (.token ⟨k, x, line⟩) (.token ⟨k, x.crlf, line⟩)
  /-- Any other token is the same. -/
  | same {k : Kind} {x : Text} {line : Int} :
      k ≠ .string → ¬ ['/', '*'] <+: w → Crlf w (.token ⟨k, x, line⟩) (.token ⟨k, x, line⟩)
  /-- An error shows the same line, but for the carriage return that ends it. -/
  | error {cause : Cause} {location : Option Location} {u v : Text} :
      v = u ∨ v = u ++ ['\r'] →
        Crlf w (.error ⟨cause, location, some u⟩) (.error ⟨cause.crlf, location, some v⟩)

namespace Lexer

/-- The lexer `m` stands in the text with carriage returns where `l` stands in `text`. -/
structure Crlf (first : Int) (text : Text) (l m : Lexer) : Prop where
  placed : l.Placed first text
  placed_crlf : m.Placed first text.crlf
  source_eq : m.source = l.source
  line_eq : m.line = l.line
  logical_eq : m.logical = l.logical
  rest_eq : m.cursor.rest = l.cursor.rest.crlf
  return_not_mem : '\r' ∉ l.cursor.rest

section
variable {first : Int} {text : Text} {l m : Lexer}

theorem Crlf.start (source : Text) (first : Int) (logical : Bool) (h : '\r' ∉ text) :
    Crlf first text (.start source first logical text) (.start source first logical text.crlf) :=
  ⟨placed_start .., placed_start .., rfl, rfl, rfl, rfl, h⟩

theorem Crlf.advance (h : Crlf first text l m) {u s : Text} (hr : l.cursor.rest = u ++ s) :
    Crlf first text (l.advance u s) (m.advance u.crlf s.crlf) where
  placed := h.placed.advance hr
  placed_crlf := h.placed_crlf.advance (by rw [h.rest_eq, hr, Text.crlf_append])
  source_eq := h.source_eq
  line_eq := by
    rw [Lexer.advance, Lexer.advance, h.line_eq, Text.count_crlf]
  logical_eq := h.logical_eq
  rest_eq := rfl
  return_not_mem := fun hmem => h.return_not_mem (by rw [hr]; exact List.mem_append_right _ hmem)

/-- Carriage returns are passed with the line feeds. -/
theorem Crlf.spaces_eq (h : Crlf first text l m) : m.spaces = l.spaces.crlf := by
  rw [spaces, h.rest_eq, Text.takeWhile_crlf rfl]
  rfl

theorem Crlf.front_eq (h : Crlf first text l m) : m.front = l.front.crlf := by
  rw [front, h.rest_eq, Text.dropWhile_crlf rfl]
  rfl

theorem Crlf.front_eq_nil_iff (h : Crlf first text l m) : m.front = [] ↔ l.front = [] := by
  rw [h.front_eq, Text.crlf_eq_nil_iff]

theorem Crlf.skipSpace (h : Crlf first text l m) : Crlf first text l.skipSpace m.skipSpace := by
  have hskip := h.advance l.spaces_append_front.symm
  rw [← h.spaces_eq, ← h.front_eq] at hskip
  exact hskip

/-- The lines that errors show are the same, but for a carriage return. -/
theorem Crlf.lineText_eq (h : Crlf first text l m) :
    m.cursor.lineText = l.cursor.lineText ∨ m.cursor.lineText = l.cursor.lineText ++ ['\r'] := by
  have hcount : m.cursor.seen.count '\n' = l.cursor.seen.count '\n' := by
    have := h.placed.line_eq
    have := h.placed_crlf.line_eq
    have := h.line_eq
    omega
  have hline := h.placed.lines_count_seen
  have hline' := h.placed_crlf.lines_count_seen
  rw [hcount] at hline'
  obtain ⟨hn, hu⟩ := List.getElem?_eq_some_iff.mp hline
  obtain ⟨hn', hv⟩ := List.getElem?_eq_some_iff.mp hline'
  rw [← hu, ← hv]
  exact (Text.lines_crlf text).get hn hn'

theorem Crlf.errorHere (h : Crlf first text l m) (w : Text) (cause : Cause) :
    (l.errorHere cause).Crlf w (m.errorHere cause.crlf) := by
  rw [Lexer.errorHere, Lexer.errorHere, h.source_eq, h.line_eq]
  exact .error h.lineText_eq

/-- What is read gives events that correspond. -/
theorem Crlf.eventOf (h : Crlf first text l m) {x : Lexed} (hr : l.cursor.rest = x.taken ++ x.rest)
    (hx : x.Explained l.logical) : (l.eventOf x).Crlf x.taken (m.eventOf x.crlf) := by
  obtain ⟨item, w, s⟩ := x
  cases item with
  | token k lexeme =>
    show Event.Crlf w (.token ⟨k, lexeme, l.line⟩) (.token ⟨k, lexeme.crlf, m.line⟩)
    rw [h.line_eq]
    by_cases hlines : k = .string ∨ ['/', '*'] <+: w
    · exact .lines hlines
    · obtain ⟨hk, hw⟩ := not_or.mp hlines
      rw [Text.crlf_of_not_mem (Spelling.lineFeed_not_mem hx hk hw)]
      exact .same hk hw
  | fault cause =>
    cases cause with
    | unterminatedString => exact (h.advance hr).errorHere w _
    | _ => exact h.errorHere w _

/-- **One call.**  Where the one text has carriage returns in front of its line feeds, the calls
yield events that correspond, take texts that correspond, and lead to places that do. -/
theorem Crlf.next (h : Crlf first text l m) :
    l.next.1.Crlf l.taken m.next.1 ∧ Crlf first text l.next.2 m.next.2 := by
  have hspace := h.skipSpace
  have key : l.next.1.Crlf l.taken m.next.1 ∧ m.taken = l.taken.crlf ∧
      m.next.2.cursor.rest = l.next.2.cursor.rest.crlf := by
    cases hf : l.front with
    | nil =>
      have hf' : m.front = [] := h.front_eq_nil_iff.mpr hf
      rw [(next_of_front_nil hf).2, (next_of_front_nil hf').2, taken, taken, hf, hf']
      refine ⟨?_, rfl, hspace.rest_eq⟩
      rw [show m.finish.endToken = l.finish.endToken from
        congrArg (fun line => (⟨.endOfInput, [], line⟩ : Token)) hspace.line_eq]
      exact .same (by simp) (by simp)
    | cons c r =>
      have hc : isSpace c = false := isSpace_of_front_cons hf
      have hr : '\r' ∉ r := fun hmem => hspace.return_not_mem (by
        rw [show l.skipSpace.cursor.rest = c :: r from hf]
        exact List.mem_cons_of_mem c hmem)
      have hf' : m.front = c :: Text.crlf r := by
        rw [h.front_eq, hf, Text.crlf_cons (ne_of_not_isSpace hc).1]
      obtain ⟨-, hevent, hnext⟩ := next_of_front_cons hf
      obtain ⟨-, hevent', hnext'⟩ := next_of_front_cons hf'
      rw [h.logical_eq, Lexed.read_crlf hc hr] at hevent' hnext'
      rw [taken_of_front_cons hf, taken_of_front_cons hf', h.logical_eq, Lexed.read_crlf hc hr,
        hevent, hevent', hnext, hnext']
      refine ⟨hspace.eventOf ?_ (Lexed.read_explained l.logical c r), rfl, rfl⟩
      rw [Lexed.taken_append_rest]
      exact hf
  obtain ⟨hevent, htaken, hrest⟩ := key
  refine ⟨hevent, h.placed.next, h.placed_crlf.next, ?_, ?_, ?_, hrest, ?_⟩
  · rw [source_next, source_next, h.source_eq]
  · rw [line_next, line_next, h.spaces_eq, htaken, ← Text.crlf_append, Text.count_crlf, h.line_eq]
  · rw [logical_next, logical_next, h.logical_eq]
  · intro hmem
    refine h.return_not_mem ?_
    rw [l.rest_eq_next]
    exact List.mem_append_right _ (List.mem_append_right _ hmem)

theorem Crlf.after (h : Crlf first text l m) (n : Nat) :
    Crlf first text (l.after n) (m.after n) := by
  induction n with
  | zero => exact h
  | succ n ih => exact ih.next.2

end

end Lexer

/-! ## Runs -/

namespace Input

theorem dropMark_crlf (t : Text) : dropMark t.crlf = (dropMark t).crlf := by
  cases t with
  | nil => rfl
  | cons c t =>
    by_cases hc : c = '\n'
    · subst hc
      rfl
    · rw [Text.crlf_cons hc, dropMark, dropMark]
      split
      · rfl
      · exact (Text.crlf_cons hc t).symm

theorem dropMark_suffix (t : Text) : dropMark t <:+ t := by
  cases t with
  | nil => exact List.suffix_refl []
  | cons c t =>
    rw [dropMark]
    split
    · exact List.suffix_cons c t
    · exact List.suffix_refl _

end Input

namespace Lexer

/-- **Line endings do not matter.**  A source without carriage returns and the source with one in
front of every line feed yield equally many events, which correspond one to one. -/
theorem events_crlf (source : Text) (first : Int) (logical : Bool) {text : Text}
    (h : '\r' ∉ text) :
    let l := start source first logical (Input.dropMark text)
    let m := start source first logical (Input.dropMark text.crlf)
    ∃ n, l.events.1 = (List.range (n + 1)).map l.event ∧
      m.events.1 = (List.range (n + 1)).map m.event ∧
      ∀ k, (l.event k).Crlf (l.after k).taken (m.event k) := by
  intro l m
  have hreturn : '\r' ∉ Input.dropMark text := fun hmem =>
    h ((Input.dropMark_suffix text).mem hmem)
  have hcrlf : Crlf first (Input.dropMark text) l m := by
    simp only [l, m, Input.dropMark_crlf]
    exact Crlf.start source first logical hreturn
  obtain ⟨n, -, hn, hmin⟩ := l.exists_front_nil
  have hn' : (m.after n).front = [] := (hcrlf.after n).front_eq_nil_iff.mpr hn
  have hmin' : ∀ k < n, (m.after k).front ≠ [] := fun k hk =>
    mt (hcrlf.after k).front_eq_nil_iff.mp (hmin k hk)
  exact ⟨n, events_eq_map_event hn hmin, events_eq_map_event hn' hmin',
    fun k => (hcrlf.after k).next.1⟩

/-- Line feeds behind a comment, in a comment, behind an operator and in a string. -/
theorem events_crlf_mixed :
    let text : Text := "// a\n/*\n*/ &\n\"b\n\"".toList
    let l := start [] 1 true (Input.dropMark text)
    let m := start [] 1 true (Input.dropMark text.crlf)
    '\r' ∉ text ∧
      ∃ n, l.events.1 = (List.range (n + 1)).map l.event ∧
        m.events.1 = (List.range (n + 1)).map m.event ∧
        (∀ k, (l.event k).Crlf (l.after k).taken (m.event k)) ∧
        l.event 2 = .error ⟨.unpairedOperator ['&'] (some ['\n']), some ⟨[], 3⟩,
          some "*/ &".toList⟩ ∧
        m.event 2 = .error ⟨.unpairedOperator ['&'] (some ['\r']), some ⟨[], 3⟩,
          some "*/ &\r".toList⟩ := by
  intro text l m
  have h : '\r' ∉ text := by decide
  obtain ⟨n, hl, hm, hevents⟩ := events_crlf [] 1 true h
  exact ⟨h, n, hl, hm, hevents, by decide +kernel, by decide +kernel⟩

end Lexer

end LoxLexer
