import Mathlib.Data.List.Infix
import LoxLexer.Proofs.Drained
import LoxLexer.Proofs.LongestMatch

/-!
# Printing and reading back

A list of kinds and lexemes is printed with single spaces between the tokens.
Strings get their quotes; a comment is a block comment if its text allows it,
else a line comment of its own line.  Reading the printed text gives the list
back, and every list that comes out of a scan can be printed.

    Admissible logical k x → Spelling logical False k x (written k x)        (spelling_written)
    Spelling logical final k x w → Admissible logical k x                    (Spelling.admissible)
    the printed text of admissible items is read back as the items           (printed_reads_back)
-/

namespace LoxLexer

/-! ## The printer -/

/-- The lexemes that a token of a kind may have. -/
def Admissible (logical : Bool) : Kind → Text → Prop
  | .string, x => '"' ∉ x
  | .comment, x => ¬ ('\n' ∈ x ∧ endMark <:+: x)
  | k, x => Spelling logical False k x x

def written : Kind → Text → Text
  | .string, x => '"' :: (x ++ ['"'])
  | .comment, x =>
    if endMark <:+: x then '/' :: '/' :: (x ++ ['\r', '\n']) else '/' :: '*' :: (x ++ endMark)
  | _, x => x

def printed (items : List (Kind × Text)) : Text :=
  [' '].intercalate (items.map fun i => written i.1 i.2)

def Token.item (t : Token) : Kind × Text := (t.kind, t.lexeme)

/-- The printed items are read as these items and the end token; a scan of the printed text
succeeds with them, unless it has lines whose numbers are too long to be written. -/
structure ReadsBack (logical : Bool) (items : List (Kind × Text)) : Prop where
  drain : ∀ (source : Text) (first : Int),
    (Lexer.start source first logical (printed items)).drain.failure = none ∧
      (Lexer.start source first logical (printed items)).drain.tokens.map Token.item =
        items ++ [(.endOfInput, [])]
  scan : ∀ (source : Text) (settings : Settings), settings.logical = logical →
    (∀ n : Nat, n ≤ (printed items).count '\n' →
      Number.isWritable (settings.firstLine + n) = true) →
    ∃ summary,
      (Scan.run true source settings (.content (.text (printed items)))).outcome = .ok summary ∧
        summary.tokens.map Token.item = items

/-! ## One token -/

theorem admissible_iff_of_isPlain {logical : Bool} {k : Kind} {x : Text} (hk : k.isPlain = true) :
    Admissible logical k x ↔ Spelling logical False k x x := by
  cases k <;> first | exact Iff.rfl | cases hk

/-- What is printed is a spelling that needs nothing behind it. -/
theorem spelling_written {logical : Bool} {k : Kind} {x : Text} (h : Admissible logical k x) :
    Spelling logical False k x (written k x) := by
  by_cases hs : k = .string
  · subst hs
    exact .string h
  · by_cases hc : k = .comment
    · subst hc
      show Spelling logical False .comment x (if endMark <:+: x then _ else _)
      split
      · next hmark =>
        have hline : '\n' ∉ x ++ ['\r'] := by
          have : '\n' ∉ x := fun hx => h ⟨hx, hmark⟩
          simp [this]
        have hspelt : Spelling logical False .comment (Lexed.trimReturn (x ++ ['\r']))
            ('/' :: '/' :: (x ++ ['\r'] ++ ['\n'])) := .lineComment hline (Or.inl rfl)
        rw [trimReturn_append_return] at hspelt
        simpa using hspelt
      · next hmark => exact .blockComment hmark
    · cases k <;> first | exact h | exact absurd rfl hs | exact absurd rfl hc

/-- What is spelt has an admissible lexeme. -/
theorem Spelling.admissible {logical : Bool} {final : Prop} {k : Kind} {x w : Text}
    (h : Spelling logical final k x w) : Admissible logical k x := by
  rcases h.form with ⟨hk, rfl⟩ | ⟨rfl, hx, -⟩ | ⟨rfl, hx, -⟩ | ⟨rfl, b, e, hb, -, rfl, -⟩
  · rw [admissible_iff_of_isPlain hk]
    refine h.weaken ?_
    rintro rfl
    cases hk
  · exact hx
  · exact fun hboth => hx hboth.2
  · rintro ⟨hline, -⟩
    refine hb ?_
    rcases trimReturn_append b with ht | ht
    · rwa [ht]
    · rw [ht]
      exact List.mem_append_left _ hline

/-! ## All tokens -/

/-- What follows the first printed item starts with a space, if it starts at all. -/
theorem printed_cons (i : Kind × Text) (items : List (Kind × Text)) :
    ∃ space, printed (i :: items) = written i.1 i.2 ++ (space ++ printed items) ∧
      (∀ c ∈ space, isSpace c = true) ∧
      ∀ d ∈ (space ++ printed items).head?, isSpace d = true := by
  cases items with
  | nil => exact ⟨[], by simp [printed], by simp, by simp [printed]⟩
  | cons j items =>
    refine ⟨[' '], ?_, by simp [isSpace], by simp [isSpace]⟩
    show [' '].intercalate (written i.1 i.2 :: written j.1 j.2 :: _) = _
    rw [List.intercalate_cons_cons, List.append_assoc]
    rfl

namespace Lexer

/-- In front of a spelling that a space or the end follows, the next event is its token. -/
theorem next_of_spelling {l : Lexer} {k : Kind} {x w s space : Text}
    (hrest : l.cursor.rest = space ++ (w ++ s)) (hspace : ∀ c ∈ space, isSpace c = true)
    (h : Spelling l.logical (s = []) k x w) (hs : ∀ d ∈ s.head?, isSpace d = true) :
    l.front ≠ [] ∧ l.next.1 = .token ⟨k, x, l.skipSpace.line⟩ ∧ l.next.2.cursor.rest = s := by
  obtain ⟨c, r, hw, hread⟩ := read_of_spelling h hs
  obtain ⟨d, u, rfl, hd⟩ := h.exists_cons
  obtain ⟨rfl, -⟩ := List.cons.inj hw
  rw [hw] at hrest
  obtain ⟨hfront, hevent, hnext⟩ := next_of_read hrest hspace hd.not_isSpace hread
  rw [hevent, hnext, skipSpace_of_spaces hrest hspace hd.not_isSpace]
  exact ⟨hfront, rfl, rfl⟩

/-- A lexer that stands in front of printed items reads these items. -/
theorem drain_of_printed {logical : Bool} {items : List (Kind × Text)}
    (h : ∀ i ∈ items, Admissible logical i.1 i.2) {l : Lexer} (hl : l.logical = logical)
    (space : Text) (hspace : ∀ c ∈ space, isSpace c = true)
    (hrest : l.cursor.rest = space ++ printed items) :
    l.drain.failure = none ∧ l.drain.tokens.map Token.item = items ++ [(.endOfInput, [])] := by
  induction items generalizing l space with
  | nil =>
    have hfront : l.front = [] := by
      refine front_eq_nil_iff.mpr fun c hc => hspace c ?_
      rw [hrest] at hc
      simpa [printed] using hc
    rw [drain_of_front_nil hfront]
    exact ⟨rfl, rfl⟩
  | cons i items ih =>
    obtain ⟨gap, hprinted, hgap, hhead⟩ := printed_cons i items
    have hspelt : Spelling l.logical (gap ++ printed items = []) i.1 i.2 (written i.1 i.2) := by
      rw [hl]
      exact (spelling_written (h i List.mem_cons_self)).weaken fun _ => False.elim
    rw [hprinted] at hrest
    obtain ⟨hfront, htoken, hnext⟩ := next_of_spelling hrest hspace hspelt hhead
    obtain ⟨hfail, htokens⟩ := ih (fun j hj => h j (List.mem_cons_of_mem _ hj))
      (l.logical_next.trans hl) gap hgap hnext
    rw [drain_of_next_token hfront htoken]
    exact ⟨hfail, by rw [List.map_cons, htokens]; rfl⟩

theorem admissible_of_mem_drain (l : Lexer) :
    ∀ t ∈ l.drain.tokens, t.kind ≠ .endOfInput → Admissible l.logical t.kind t.lexeme := by
  refine forall_mem_drain (Q := fun m => m.logical = l.logical) (fun m hm => ?_) ?_ l rfl
  · exact m.logical_next.trans hm
  · intro m t hm ht hk
    rw [← hm]
    exact (spelling_taken ht hk).admissible

end Lexer

theorem dropMark_printed {logical : Bool} {items : List (Kind × Text)}
    (h : ∀ i ∈ items, Admissible logical i.1 i.2) :
    Input.dropMark (printed items) = printed items := by
  cases items with
  | nil => rfl
  | cons i items =>
    obtain ⟨gap, hprinted, -, -⟩ := printed_cons i items
    obtain ⟨c, r, hw, hc⟩ := (spelling_written (h i List.mem_cons_self)).exists_cons
    rw [hprinted, hw, List.cons_append, Input.dropMark, if_neg hc.ne_byteOrderMark]

/-- Without the end token, the items of a run are left. -/
theorem item_filter_keeps {tokens : List Token} {items : List (Kind × Text)}
    (h : tokens.map Token.item = items ++ [(.endOfInput, [])])
    (hitems : ∀ i ∈ items, i.1 ≠ .endOfInput) :
    (tokens.filter (Scan.keeps true)).map Token.item = items := by
  have hkeeps : Scan.keeps true =
      (fun i : Kind × Text => decide (i.1 ≠ .endOfInput)) ∘ Token.item := by
    funext t
    by_cases ht : t.kind = .endOfInput <;> simp [Scan.keeps, Token.item, ht]
  rw [hkeeps, ← List.filter_map, h, List.filter_append, List.filter_eq_self.mpr]
  · simp
  · intro i hi
    simpa using hitems i hi

theorem readsBack_of_admissible {logical : Bool} {items : List (Kind × Text)}
    (h : ∀ i ∈ items, Admissible logical i.1 i.2) : ReadsBack logical items where
  drain source first := Lexer.drain_of_printed h rfl [] (by simp) rfl
  scan source settings hlogical hwritable := by
    obtain ⟨hfail, htokens⟩ := Lexer.drain_of_printed h
      (l := Lexer.start source settings.firstLine settings.logical (printed items))
      hlogical [] (by simp) rfl
    have hlines : ∀ t ∈ (Lexer.start source settings.firstLine settings.logical
        (printed items)).drain.tokens, Number.isWritable t.line = true := by
      intro t ht
      obtain ⟨n, hn, hline⟩ := (Lexer.placed_start _ _ _ _).line_of_mem_drain t ht
      rw [hline]
      exact hwritable n hn
    have hkinds : ∀ i ∈ items, i.1 ≠ .endOfInput := fun i hi =>
      (spelling_written (h i hi)).kind_ne_endOfInput
    rw [Scan.run, Input.load_text, dropMark_printed h]
    exact ⟨_, Scan.outcome_eq_ok_iff.mpr ⟨hfail, hlines, rfl⟩, item_filter_keeps htokens hkinds⟩

/-- The tokens of a scan that succeeds are admissible. -/
theorem admissible_of_outcome_ok {includeComments : Bool} {source : Text} {settings : Settings}
    {input : Input} {summary : Summary}
    (h : (Scan.run includeComments source settings input).outcome = .ok summary) :
    ∀ t ∈ summary.tokens, Admissible settings.logical t.kind t.lexeme := by
  unfold Scan.run at h
  split at h
  · cases h
  · next text _ =>
    obtain ⟨-, -, rfl⟩ := Scan.outcome_eq_ok_iff.mp h
    intro t ht
    obtain ⟨hmem, hkeeps⟩ := List.mem_filter.mp ht
    have hk : t.kind ≠ .endOfInput := by
      simp only [Scan.keeps, Bool.and_eq_true, decide_eq_true_eq] at hkeeps
      exact hkeeps.1
    exact Lexer.admissible_of_mem_drain _ t hmem hk

/-- **Reading undoes printing.**  Admissible items are read back from their printed text.  The
tokens of any scan that succeeds are such items. -/
theorem printed_reads_back (logical : Bool) :
    (∀ items : List (Kind × Text), (∀ i ∈ items, Admissible logical i.1 i.2) →
      ReadsBack logical items) ∧
    (∀ (includeComments : Bool) (source : Text) (settings : Settings) (input : Input)
      (summary : Summary), settings.logical = logical →
      (Scan.run includeComments source settings input).outcome = .ok summary →
      (∀ t ∈ summary.tokens, Admissible logical t.kind t.lexeme) ∧
        ReadsBack logical (summary.tokens.map Token.item)) := by
  refine ⟨fun items h => readsBack_of_admissible h, ?_⟩
  rintro includeComments source settings input summary rfl hok
  have hadmissible := admissible_of_outcome_ok hok
  refine ⟨hadmissible, readsBack_of_admissible fun i hi => ?_⟩
  obtain ⟨t, ht, rfl⟩ := List.mem_map.mp hi
  exact hadmissible t ht

/-- A comment that holds an end mark, a string that holds the start of one, and a number. -/
theorem printed_reads_back_mixed :
    let items := [(.comment, "a*/b\r".toList), (.string, "x\n/*".toList), (.float, "1.50".toList)]
    printed items = "//a*/b\r\r\n \"x\n/*\" 1.50".toList ∧
      (∀ i ∈ items, Admissible true i.1 i.2) ∧ ReadsBack true items ∧
      ∃ summary,
        (Scan.run true "a.lox".toList {} (.content (.text (printed items)))).outcome = .ok summary ∧
          ReadsBack true (summary.tokens.map Token.item) := by
  intro items
  have hfloat : IsWord .float "1.50".toList :=
    .float (a := "1".toList) (b := "50".toList) (isIntegerText_iff.mp (by decide))
      (isIntegerText_iff.mp (by decide))
  have hitems : ∀ i ∈ items, Admissible true i.1 i.2 := by
    intro i hi
    simp only [items, List.mem_cons, List.not_mem_nil, or_false] at hi
    rcases hi with rfl | rfl | rfl
    · show ¬ (_ ∧ _)
      decide
    · show _ ∉ _
      decide
    · exact .word hfloat
  have hback := (printed_reads_back true).1 items hitems
  have hcount : (printed items).count '\n' = 2 := by decide +kernel
  have hwritable : ∀ n : Nat, n < 3 → Number.isWritable (1 + n) = true := by decide +kernel
  obtain ⟨summary, hok, -⟩ := hback.scan "a.lox".toList {} rfl fun n hn =>
    hwritable n (by omega)
  exact ⟨by decide +kernel, hitems, hback, summary, hok,
    ((printed_reads_back true).2 true _ {} _ summary rfl hok).2⟩

end LoxLexer
