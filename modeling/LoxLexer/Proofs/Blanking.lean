import LoxLexer.Proofs.Drained
import LoxLexer.Proofs.Lookahead

/-!
# Comments blanked out

A comment parts what stands on its two sides and moves what follows by its line
feeds.  A space and as many line feeds do the same, so a source with such blanks
for its comments is read as the source itself without the comments.

    a token keeps its reading where a space comes in place of a comment   (read_of_outlook_or_space)
    l.Blanks m → the run of m is the run of l without the comments        (Blanks.drain)
    the scan of the blanked source is the scan that keeps no comments     (scan_blanked)
-/

namespace LoxLexer

/-! ## Algorithm -/

/-- What comes in place of a comment: a space, and its line feeds. -/
def Text.blank (t : Text) : Text := ' ' :: List.replicate (t.count '\n') '\n'

def Event.isComment : Event → Bool
  | .token t => Scan.isComment t
  | .error _ => false

namespace Lexer

/-- What a call takes from the text, with a comment blanked out. -/
def blankedPiece (l : Lexer) : Text :=
  l.spaces ++ if l.next.1.isComment then Text.blank l.taken else l.taken

/-- The rest of the text with every comment blanked out. -/
def blanked (l : Lexer) : Text :=
  if _h : l.front = [] then l.cursor.rest else l.blankedPiece ++ l.next.2.blanked
termination_by l.cursor.rest.length
decreasing_by exact length_next_lt _h

end Lexer

/-! ## Blanks -/

theorem isSpace_of_mem_blank {t : Text} : ∀ c ∈ Text.blank t, isSpace c = true := by
  intro c hc
  rcases List.mem_cons.mp hc with rfl | hc
  · rfl
  · rw [List.eq_of_mem_replicate hc]
    rfl

theorem count_blank (t : Text) : (Text.blank t).count '\n' = t.count '\n' := by
  rw [Text.blank, List.count_cons_of_ne (by decide), List.count_replicate_self]

namespace Lexer

theorem blanked_of_front_nil {l : Lexer} (h : l.front = []) : l.blanked = l.cursor.rest := by
  rw [blanked, dif_pos h]

theorem blanked_of_comment {l : Lexer} (h : l.front ≠ []) (hc : l.next.1.isComment = true) :
    l.blanked = l.spaces ++ (Text.blank l.taken ++ l.next.2.blanked) := by
  rw [blanked, dif_neg h, blankedPiece, if_pos hc, List.append_assoc]

theorem blanked_of_not_comment {l : Lexer} (h : l.front ≠ []) (hc : l.next.1.isComment = false) :
    l.blanked = l.spaces ++ (l.taken ++ l.next.2.blanked) := by
  rw [blanked, dif_neg h, blankedPiece, if_neg (by simp [hc]), List.append_assoc]

theorem taken_ne_nil {l : Lexer} (h : l.front ≠ []) : l.taken ≠ [] := by
  obtain ⟨c, r, hcr⟩ := List.exists_cons_of_ne_nil h
  rw [taken, hcr]
  exact Lexed.taken_ne_nil l.logical c r

/-- A comment begins with a slash. -/
theorem head?_taken_of_comment {l : Lexer} (hc : l.next.1.isComment = true) :
    l.taken.head? = some '/' := by
  rcases l.next_cases with ⟨-, hn⟩ | ⟨-, ⟨k, x, he, hs⟩ | ⟨cause, he, -⟩⟩
  · rw [hn] at hc
    cases hc
  · have hk : k = .comment := by simpa [he, Event.isComment, Scan.isComment] using hc
    subst hk
    rcases hs.form with ⟨hk, -⟩ | ⟨hk, -⟩ | ⟨-, -, hw⟩ | ⟨-, _, _, -, -, -, hw⟩
    · cases hk
    · cases hk
    · rw [hw]
      rfl
    · rw [hw]
      rfl
  · rw [he] at hc
    cases hc

/-- Blanking leaves the first character alone, or puts a space for a slash. -/
theorem head?_blanked (l : Lexer) :
    l.blanked.head? = l.cursor.rest.head? ∨
      l.cursor.rest.head? = some '/' ∧ l.blanked.head? = some ' ' := by
  by_cases hf : l.front = []
  · exact Or.inl (by rw [blanked_of_front_nil hf])
  · have hrest := l.rest_eq_next
    cases hc : l.next.1.isComment with
    | true =>
      rw [blanked_of_comment hf hc]
      cases hspaces : l.spaces with
      | nil =>
        rw [hspaces, List.nil_append] at hrest
        refine Or.inr ⟨?_, rfl⟩
        rw [hrest, List.head?_append, head?_taken_of_comment hc]
        rfl
      | cons d u =>
        rw [hspaces] at hrest
        exact Or.inl (by rw [hrest]; rfl)
    | false =>
      rw [blanked_of_not_comment hf hc, hrest]
      obtain ⟨c, v, hcv⟩ := List.exists_cons_of_ne_nil (taken_ne_nil hf)
      cases l.spaces with
      | nil => exact Or.inl (by rw [hcv]; rfl)
      | cons d u => exact Or.inl rfl

/-- The blanked text looks like the text from its front, or it begins with a space. -/
theorem outlook_blanked (l : Lexer) :
    outlook l.blanked = outlook l.cursor.rest ∨ ∀ d ∈ l.blanked.head?, isSpace d = true := by
  by_cases hf : l.front = []
  · exact Or.inl (by rw [blanked_of_front_nil hf])
  · cases hspaces : l.spaces with
    | cons d u =>
      -- the spaces in front are still there
      have hd : isSpace d = true := isSpace_of_mem_spaces (l := l) d (by simp [hspaces])
      refine Or.inr ?_
      cases hc : l.next.1.isComment with
      | true => simpa [blanked_of_comment hf hc, hspaces] using hd
      | false => simpa [blanked_of_not_comment hf hc, hspaces] using hd
    | nil =>
      cases hc : l.next.1.isComment with
      | true =>
        refine Or.inr ?_
        rw [blanked_of_comment hf hc, hspaces]
        intro d hd
        cases hd
        rfl
      | false =>
        have hrest := l.rest_eq_next
        rw [hspaces, List.nil_append] at hrest
        obtain ⟨c, v, hcv⟩ := List.exists_cons_of_ne_nil (taken_ne_nil hf)
        refine Or.inl ?_
        rw [blanked_of_not_comment hf hc, hspaces, hrest, hcv]
        cases v with
        | cons e v => rfl
        | nil =>
          -- of what follows it can only be seen whether it is a digit, and neither a slash is one
          -- nor a space
          refine Prod.ext rfl ?_
          show l.next.2.blanked.head?.any Char.isDigit = l.next.2.cursor.rest.head?.any Char.isDigit
          rcases l.next.2.head?_blanked with h | ⟨h, h'⟩
          · rw [h]
          · rw [h, h']
            rfl

end Lexer

/-! ## Readings -/

/-- A token that is no comment is still read when what follows begins alike, or with a space. -/
theorem read_of_outlook_or_space {logical : Bool} {c : Char} {r : Text} {k : Kind} {x w s s' : Text}
    (h : Lexed.read logical c r = ⟨.token k x, w, s⟩) (hk : k ≠ .comment)
    (hs : outlook s' = outlook s ∨ ∀ d ∈ s'.head?, isSpace d = true) :
    ∃ r', w ++ s' = c :: r' ∧ Lexed.read logical c r' = ⟨.token k x, w, s'⟩ := by
  have hsplit : w ++ s = c :: r := by
    have := Lexed.taken_append_rest logical c r
    rwa [h] at this
  have hw : w ≠ [] := by
    have := Lexed.taken_ne_nil logical c r
    rwa [h] at this
  obtain ⟨d, v, rfl⟩ := List.exists_cons_of_ne_nil hw
  obtain ⟨rfl, -⟩ := List.cons.inj hsplit
  refine ⟨v ++ s', rfl, ?_⟩
  rcases hs with hlook | hspace
  · have hlook' : outlook s' = outlook (Lexed.read logical d r).rest := by rw [h, hlook]
    have htaken : d :: (v ++ s') = (Lexed.read logical d r).taken ++ s' := by rw [h]; rfl
    rw [Lexed.read_of_outlook hlook' htaken, h]
  · have hspelt : Spelling logical (s = []) k x (d :: v) := by
      have := Lexed.read_explained logical d r
      rwa [h] at this
    obtain ⟨e, u, hu, hread⟩ := read_of_spelling (s := s')
      (hspelt.weaken fun hcomment => absurd hcomment hk) hspace
    obtain ⟨rfl, rfl⟩ := List.cons.inj hu
    exact hread

/-! ## Runs -/

namespace Lexer

/-- The lexer `m` is on the line that `l` is on, in front of the blanked text. -/
structure Blanks (l m : Lexer) : Prop where
  logical_eq : m.logical = l.logical
  line_eq : m.line = l.line
  rest_eq : m.cursor.rest = l.blanked

section
variable {l m : Lexer}

/-- At the end the two have the same spaces left. -/
theorem Blanks.finish (h : l.Blanks m) (hf : l.front = []) :
    m.front = [] ∧ m.finish.endToken = l.finish.endToken := by
  have hrest : m.cursor.rest = l.cursor.rest := h.rest_eq.trans (blanked_of_front_nil hf)
  have hfront : m.front = [] := by rw [front, hrest]; exact hf
  have hline : m.skipSpace.line = l.skipSpace.line := by
    simp only [Lexer.skipSpace, Lexer.advance, hrest, h.line_eq]
  exact ⟨hfront, congrArg (fun line => (⟨.endOfInput, [], line⟩ : Token)) hline⟩

/-- The blank of a comment is passed as a space, and leads to the same line. -/
theorem Blanks.comment (h : l.Blanks m) (hf : l.front ≠ []) (hc : l.next.1.isComment = true) :
    ∃ m', l.next.2.Blanks m' ∧ m'.drain = m.drain := by
  have hrest : m.cursor.rest = (l.spaces ++ Text.blank l.taken) ++ l.next.2.blanked := by
    rw [h.rest_eq, blanked_of_comment hf hc, List.append_assoc]
  have hspace : ∀ c ∈ l.spaces ++ Text.blank l.taken, isSpace c = true := by
    intro c hc
    rcases List.mem_append.mp hc with hc | hc
    · exact isSpace_of_mem_spaces c hc
    · exact isSpace_of_mem_blank c hc
  refine ⟨m.advance (l.spaces ++ Text.blank l.taken) l.next.2.blanked,
    ⟨h.logical_eq.trans l.logical_next.symm, ?_, rfl⟩, drain_advance hrest hspace⟩
  rw [l.line_next, ← h.line_eq, List.count_append, ← count_blank l.taken, ← List.count_append]
  rfl

/-- Any other token is read in the blanked text, too. -/
theorem Blanks.token (h : l.Blanks m) (hf : l.front ≠ []) {t : Token} (ht : l.next.1 = .token t)
    (hk : Scan.isComment t = false) :
    m.front ≠ [] ∧ m.next.1 = .token t ∧ l.next.2.Blanks m.next.2 := by
  obtain ⟨c, r, hcr⟩ := List.exists_cons_of_ne_nil hf
  have hkind : t.kind ≠ .comment := by simpa [Scan.isComment] using hk
  obtain ⟨hread, hline⟩ := read_of_token hcr ht
  obtain ⟨r', hr', hread'⟩ := read_of_outlook_or_space hread hkind l.next.2.outlook_blanked
  have hrest : m.cursor.rest = l.spaces ++ c :: r' := by
    rw [h.rest_eq, blanked_of_not_comment hf (by rw [ht]; exact hk), hr']
  rw [← h.logical_eq] at hread'
  obtain ⟨hf', hevent, hnext⟩ :=
    next_of_read hrest isSpace_of_mem_spaces (isSpace_of_front_cons hcr) hread'
  refine ⟨hf', ?_, ?_, ?_, ?_⟩
  · have hspace : (m.advance l.spaces (c :: r')).line = t.line := by
      rw [hline]
      exact congrArg (· + _) h.line_eq
    rw [hevent]
    exact congrArg (fun line => Event.token ⟨t.kind, t.lexeme, line⟩) hspace
  · rw [m.logical_next, l.logical_next, h.logical_eq]
  · rw [hnext, l.line_next, ← h.line_eq]
    rfl
  · rw [hnext]
    rfl

/-- **The run of the blanked text** gives the tokens of the text that are no comments. -/
theorem Blanks.drain (h : l.Blanks m) (hl : l.drain.failure = none) :
    m.drain.failure = none ∧
      m.drain.tokens = l.drain.tokens.filter fun t => !Scan.isComment t := by
  induction l using induction_on_next generalizing m with
  | h l ih =>
    by_cases hf : l.front = []
    · obtain ⟨hf', hend⟩ := h.finish hf
      rw [drain_of_front_nil hf, drain_of_front_nil hf', hend]
      exact ⟨rfl, rfl⟩
    · cases he : l.next.1 with
      | error d =>
        rw [drain_of_next_error hf he] at hl
        cases hl
      | token t =>
        rw [drain_of_next_token hf he] at hl ⊢
        cases hk : Scan.isComment t with
        | true =>
          have hc : l.next.1.isComment = true := by rw [he]; exact hk
          obtain ⟨m', hnext, hdrain⟩ := h.comment hf hc
          rw [← hdrain, List.filter_cons_of_neg (by simp [hk])]
          exact ih hf hnext hl
        | false =>
          obtain ⟨hf', ht, hnext⟩ := h.token hf he hk
          obtain ⟨hfailure, htokens⟩ := ih hf hnext hl
          rw [drain_of_next_token hf' ht, List.filter_cons_of_pos (by simp [hk])]
          exact ⟨hfailure, congrArg (t :: ·) htokens⟩

/-- A run without an error starts with spaces only, or with a character that starts a token. -/
theorem starts_of_front_cons {c : Char} {r : Text} (h : l.drain.failure = none)
    (hf : l.front = c :: r) : Starts l.logical c := by
  cases he : l.next.1 with
  | error d =>
    rw [drain_of_next_error (by simp [hf]) he] at h
    cases h
  | token t =>
    obtain ⟨hread, -⟩ := read_of_token hf he
    have hspelt := Lexed.read_explained l.logical c r
    have hsplit := Lexed.taken_append_rest l.logical c r
    rw [hread] at hspelt hsplit
    obtain ⟨d, v, hdv, hd⟩ := Spelling.exists_cons hspelt
    rw [show l.taken = d :: v from hdv] at hsplit
    rwa [← (List.cons.inj hsplit).1]

end

end Lexer

/-! ## Scans -/

namespace Scan

/-- Where no comments are left, keeping comments makes no difference. -/
theorem filter_keeps_not_comment (includeComments : Bool) (tokens : List Token) :
    (tokens.filter fun t => !isComment t).filter (keeps includeComments) =
      tokens.filter (keeps false) := by
  rw [List.filter_filter]
  congr 1
  funext t
  cases hc : isComment t <;> simp [keeps, hc]

theorem countP_not_comment (tokens : List Token) :
    (tokens.filter fun t => !isComment t).countP isComment = 0 := by
  rw [List.countP_eq_zero]
  intro t ht
  simpa using (List.mem_filter.mp ht).2

/-- **Filtering comments is blanking them out.**  If the scan of a source raises no error, then the
source with a space and the line feeds of each comment in its place is scanned without an error
and without a comment, and gives the tokens of the scan that keeps no comments. -/
theorem scan_blanked (includeComments : Bool) (source : Text) (settings : Settings) (input : Input)
    (text : Text) (hload : input.load settings.encoding ⟨source, settings.firstLine⟩ = .ok text) :
    let run := fun t => (Lexer.start source settings.firstLine settings.logical t).drain
    let blanked := (Lexer.start source settings.firstLine settings.logical text).blanked
    ((run text).failure = none →
      (run blanked).failure = none ∧
        (run blanked).tokens = (run text).tokens.filter fun t => !isComment t) ∧
    ∀ summary, (Scan.run includeComments source settings input).outcome = .ok summary →
      ∃ kept, (Scan.run false source settings input).outcome = .ok kept ∧
        ∀ includeComments' : Bool, ∃ result,
          (Scan.run includeComments' source settings (.content (.text blanked))).outcome =
            .ok result ∧ result.commentCount = 0 ∧ result.tokens = kept.tokens := by
  intro run blanked
  have hrun : (run text).failure = none →
      (run blanked).failure = none ∧
        (run blanked).tokens = (run text).tokens.filter fun t => !isComment t :=
    Lexer.Blanks.drain ⟨rfl, rfl, rfl⟩
  refine ⟨hrun, fun summary hok => ?_⟩
  have hscan : ∀ keep, Scan.run keep source settings input = ofText keep source settings text := by
    intro keep
    rw [Scan.run, hload]
  rw [hscan] at hok ⊢
  obtain ⟨hfailure, hlines, -⟩ := outcome_eq_ok_iff.mp hok
  obtain ⟨hfailure', htokens⟩ := hrun hfailure
  refine ⟨_, outcome_eq_ok_iff.mpr ⟨hfailure, hlines, rfl⟩, fun keep => ?_⟩
  have hmark : Input.dropMark blanked = blanked := by
    refine Input.dropMark_of_head?_ne fun hhead => ?_
    obtain ⟨r, hr⟩ := List.head?_eq_some_iff.mp hhead
    have hfront : (Lexer.start source settings.firstLine settings.logical blanked).front =
        Input.byteOrderMark :: r := by
      rw [hr]
      rfl
    exact (Lexer.starts_of_front_cons hfailure' hfront).ne_byteOrderMark rfl
  have hlines' : ∀ t ∈ (run blanked).tokens, Number.isWritable t.line = true := by
    intro t ht
    rw [htokens] at ht
    exact hlines t (List.mem_filter.mp ht).1
  rw [Scan.run, Input.load_text, hmark]
  refine ⟨_, outcome_eq_ok_iff.mpr ⟨hfailure', hlines', rfl⟩, ?_, ?_⟩
  · rw [htokens]
    exact countP_not_comment _
  · rw [htokens]
    exact filter_keeps_not_comment keep _

/-- Comments between `1` and `.5`, `!` and `=`, and two words, and one that the end closes. -/
theorem scan_blanked_joins :
    let text : Text := "1/**/.5 !/*\n*/=a//b\r\nc//".toList
    let input : Input := .content (.text text)
    let blanked := (Lexer.start "a.lox".toList 1 true text).blanked
    input.load (.named "utf-8".toList) ⟨"a.lox".toList, 1⟩ = .ok text ∧
      blanked = "1 .5 ! \n=a \nc ".toList ∧
      (Lexer.start "a.lox".toList 1 true text).drain.failure = none ∧
      ∃ summary kept result, (Scan.run true "a.lox".toList {} input).outcome = .ok summary ∧
        (Scan.run false "a.lox".toList {} input).outcome = .ok kept ∧
        (Scan.run true "a.lox".toList {} (.content (.text blanked))).outcome = .ok result ∧
        result.commentCount = 0 ∧ result.tokens = kept.tokens := by
  intro text input blanked
  have hload : input.load (.named "utf-8".toList) ⟨"a.lox".toList, 1⟩ = .ok text := rfl
  have hfailure : (Lexer.start "a.lox".toList 1 true text).drain.failure = none := by
    decide +kernel
  obtain ⟨summary, hsummary⟩ : ∃ summary,
      (Scan.run true "a.lox".toList {} input).outcome = .ok summary :=
    ⟨_, outcome_eq_ok_iff.mpr ⟨hfailure, by decide +kernel, rfl⟩⟩
  obtain ⟨-, hscan⟩ := scan_blanked true "a.lox".toList {} input text hload
  obtain ⟨kept, hkept, hblanked⟩ := hscan summary hsummary
  obtain ⟨result, hresult, hcount, htokens⟩ := hblanked true
  exact ⟨hload, by decide +kernel, hfailure, summary, kept, result, hsummary, hkept, hresult,
    hcount, htokens⟩

end Scan

end LoxLexer
