import LoxLexer.Proofs.Lookahead
import LoxLexer.Proofs.Relocation

/-!
# Sources joined by a line feed

If a first source is read without an error, then the first source, a line feed
and a second source are read as the tokens of the first and then whatever the
second is read as by itself, on lines that follow those of the first.

    a token is still read when a line feed and more follow the source       (next_extend)
    the run goes on in front of the second source                           (exists_drain_extend)
    the scan of joined sources is made of the two scans                     (scan_joined_sources)
-/

namespace LoxLexer

namespace Lexer

/-! ## More text behind -/

/-- The lexer in a source that goes on with `t`. -/
def extend (l : Lexer) (t : Text) : Lexer :=
  { l with cursor := ⟨l.cursor.seen, l.cursor.rest ++ t⟩ }

/-- What follows the source does not change the spaces in front of what is there. -/
theorem skipSpace_extend {l : Lexer} {c : Char} {r : Text} (h : l.front = c :: r) (t : Text) :
    (l.extend t).front = c :: (r ++ t) ∧ (l.extend t).skipSpace = l.skipSpace.extend t := by
  have hrest : (l.extend t).cursor.rest = l.spaces ++ c :: (r ++ t) := by
    show l.cursor.rest ++ t = _
    rw [← spaces_append_front, h, List.append_assoc, List.cons_append]
  have hc := isSpace_of_front_cons h
  refine ⟨front_of_spaces hrest isSpace_of_mem_spaces hc, ?_⟩
  rw [skipSpace_of_spaces hrest isSpace_of_mem_spaces hc]
  show _ = (l.advance l.spaces l.front).extend t
  rw [h]
  rfl

/-- A token is still read when a line feed and more follow the source.  Only a comment that the end
of the source closed takes the line feed as well. -/
theorem next_extend {l : Lexer} {t : Token} (hf : l.front ≠ []) (ht : l.next.1 = .token t)
    (b : Text) :
    (l.extend ('\n' :: b)).front ≠ [] ∧
      ((l.extend ('\n' :: b)).next = (.token t, l.next.2.extend ('\n' :: b)) ∨
        l.next.2.cursor.rest = [] ∧ (l.extend ('\n' :: b)).next.1 = .token t ∧
          (l.extend ('\n' :: b)).next.2.cursor.rest = b) := by
  obtain ⟨c, r, hcr⟩ := List.exists_cons_of_ne_nil hf
  obtain ⟨hfront, hskip⟩ := skipSpace_extend hcr ('\n' :: b)
  obtain ⟨-, -, hnext⟩ := next_of_front_cons hcr
  obtain ⟨-, hevent', hnext'⟩ := next_of_front_cons hfront
  obtain ⟨hread, hline⟩ := read_of_token hcr ht
  rw [hskip, show (l.extend ('\n' :: b)).logical = l.logical from rfl] at hevent' hnext'
  have htoken : Event.token ⟨t.kind, t.lexeme, l.skipSpace.line⟩ = .token t := by rw [← hline]
  refine ⟨by simp [hfront], ?_⟩
  rcases read_lineFeed hread b with hread' | ⟨hend, hread'⟩
  · rw [hread'] at hevent' hnext'
    refine Or.inl (Prod.ext (hevent'.trans htoken) ?_)
    rw [hnext', hnext, hread]
    rfl
  · rw [hread'] at hevent' hnext'
    exact Or.inr ⟨hend, hevent'.trans htoken, congrArg (·.cursor.rest) hnext'⟩

/-! ## Runs -/

/-- The lexer `n` stands in front of the second source, where a lexer in the joined sources comes
to that was at `l` in the first source. -/
structure GoesOn (l : Lexer) (b : Text) (n : Lexer) : Prop where
  source_eq : n.source = l.source
  logical_eq : n.logical = l.logical
  rest_eq : n.cursor.rest = b
  placed : ∀ {first : Int} {text : Text},
    (l.extend ('\n' :: b)).Placed first text → n.Placed first text

/-- If the first source is read without an error, the run over the joined sources gives the same
tokens and goes on as a lexer in front of the second source. -/
theorem exists_drain_extend {l : Lexer} (h : l.drain.failure = none) (b : Text) :
    ∃ (tokens : List Token) (last : Token) (n : Lexer),
      l.drain.tokens = tokens ++ [last] ∧ last.kind = .endOfInput ∧ l.GoesOn b n ∧
        (l.extend ('\n' :: b)).drain.tokens = tokens ++ n.drain.tokens ∧
        (l.extend ('\n' :: b)).drain.failure = n.drain.failure := by
  induction l using induction_on_next with
  | h l ih =>
    by_cases hf : l.front = []
    · -- only spaces are left, and the line feed is one more
      have hspaces : ∀ c ∈ l.cursor.rest ++ ['\n'], isSpace c = true := by
        intro c hc
        rcases List.mem_append.mp hc with hc | hc
        · exact front_eq_nil_iff.mp hf c hc
        · rw [List.mem_singleton.mp hc]
          rfl
      have hrest : (l.extend ('\n' :: b)).cursor.rest = l.cursor.rest ++ ['\n'] ++ b := by
        simp [extend]
      rw [drain_of_front_nil hf, ← drain_advance hrest hspaces]
      exact ⟨[], l.finish.endToken, (l.extend ('\n' :: b)).advance (l.cursor.rest ++ ['\n']) b, rfl,
        rfl, ⟨rfl, rfl, rfl, fun hp => hp.advance hrest⟩, rfl, rfl⟩
    · cases he : l.next.1 with
      | error d =>
        rw [drain_of_next_error hf he] at h
        cases h
      | token t =>
        rw [drain_of_next_token hf he] at h ⊢
        obtain ⟨hf', hnext | ⟨hend, ht, hrest⟩⟩ := next_extend hf he b
        · obtain ⟨tokens, last, n, htokens, hlast, hn, hjoined, hfailure⟩ := ih hf h
          have ht : (l.extend ('\n' :: b)).next.1 = .token t := by rw [hnext]
          have hplaced : ∀ {first : Int} {text : Text},
              (l.extend ('\n' :: b)).Placed first text → n.Placed first text := fun hp => by
            have := hp.next
            rw [hnext] at this
            exact hn.placed this
          rw [drain_of_next_token hf' ht, hnext]
          exact ⟨t :: tokens, last, n, congrArg (t :: ·) htokens, hlast,
            ⟨hn.source_eq.trans l.source_next, hn.logical_eq.trans l.logical_next, hn.rest_eq,
              hplaced⟩, congrArg (t :: ·) hjoined, hfailure⟩
        · -- the comment has taken the line feed, and nothing of the first source is left
          have hfront : l.next.2.front = [] := by rw [front, hend]; rfl
          rw [drain_of_front_nil hfront, drain_of_next_token hf' ht]
          exact ⟨[t], l.next.2.finish.endToken, (l.extend ('\n' :: b)).next.2, rfl, rfl,
            ⟨source_next _, logical_next _, hrest, fun hp => hp.next⟩, rfl, rfl⟩

/-- **Joined runs.**  If the first source is read without an error, the joined sources are read as
the first and then as the second, moved behind the lines of the first. -/
theorem drain_joined {source : Text} {first : Int} {logical : Bool} {a : Text}
    (h : (start source first logical a).drain.failure = none) (b : Text) :
    ∃ (tokens : List Token) (last : Token),
      (start source first logical a).drain.tokens = tokens ++ [last] ∧ last.kind = .endOfInput ∧
        (start source first logical (a ++ '\n' :: b)).drain.tokens = tokens ++
          (start source first logical b).drain.tokens.map (Token.shift (a.count '\n' + 1)) ∧
        (start source first logical (a ++ '\n' :: b)).drain.failure =
          (start source first logical b).drain.failure.map
            (Diagnostic.shift (a.count '\n' + 1)) := by
  obtain ⟨tokens, last, n, htokens, hlast, hn, hjoined, hfailure⟩ := exists_drain_extend h b
  have hplaced : n.Placed first (a ++ '\n' :: b) :=
    hn.placed (placed_start source first logical (a ++ '\n' :: b))
  have hseen : n.cursor.seen = '\n' :: a.reverse := by
    have htext : n.cursor.seen.reverse ++ b = a ++ ['\n'] ++ b := by
      have := hplaced.text_eq
      rw [Cursor.text, hn.rest_eq] at this
      rw [this, List.append_assoc, List.singleton_append]
    have hreverse := congrArg List.reverse (List.append_cancel_right htext)
    simpa using hreverse
  have hembedded : (start source first logical b).Embedded n.cursor.seen (a.count '\n' + 1) n := by
    refine ⟨hn.source_eq, rfl, hn.rest_eq, ?_, hn.logical_eq⟩
    rw [hplaced.line_eq, hseen, List.count_cons_self, List.count_reverse]
    rfl
  obtain ⟨hmoved, hfailed⟩ := hembedded.drain (by rw [hseen]; rfl)
  exact ⟨tokens, last, htokens, hlast, hjoined.trans (congrArg (tokens ++ ·) hmoved),
    hfailure.trans hfailed⟩

end Lexer

/-! ## Scans -/

theorem Number.isWritable_of_le_of_le {x y z : Int} (hx : isWritable x = true)
    (hz : isWritable z = true) (hxy : x ≤ y) (hyz : y ≤ z) : isWritable y = true := by
  simp only [isWritable, decide_eq_true_eq] at *
  omega

namespace Input

theorem dropMark_append_lineFeed (a b : Text) :
    dropMark (a ++ '\n' :: b) = dropMark a ++ '\n' :: b := by
  cases a with
  | nil => rfl
  | cons c a =>
    show (if _ then _ else _) = (if _ then _ else _) ++ _
    split <;> rfl

theorem count_dropMark (t : Text) : (dropMark t).count '\n' = t.count '\n' := by
  cases t with
  | nil => rfl
  | cons c t =>
    rw [dropMark]
    split
    · next h => rw [h, List.count_cons_of_ne (by decide)]
    · rfl

end Input

namespace Scan

theorem keeps_shift (includeComments : Bool) (k : Int) :
    keeps includeComments ∘ Token.shift k = keeps includeComments := rfl

/-- The end token of the first source is not kept. -/
theorem filter_keeps_joined {includeComments : Bool} {tokens others : List Token} {last : Token}
    (h : last.kind = .endOfInput) (k : Int) :
    (tokens ++ others.map (Token.shift k)).filter (keeps includeComments) =
      (tokens ++ [last]).filter (keeps includeComments) ++
        (others.filter (keeps includeComments)).map (Token.shift k) := by
  have hlast : keeps includeComments last = false := by simp [keeps, h]
  simp [List.filter_append, List.filter_map, keeps_shift, hlast]

theorem filter_keeps_drain_joined {includeComments : Bool} {source : Text} {first : Int}
    {logical : Bool} {a b : Text}
    (hnone : (Lexer.start source first logical a).drain.failure = none) :
    (Lexer.start source first logical (a ++ '\n' :: b)).drain.tokens.filter
        (keeps includeComments) =
      (Lexer.start source first logical a).drain.tokens.filter (keeps includeComments) ++
        ((Lexer.start source first logical b).drain.tokens.filter (keeps includeComments)).map
          (Token.shift (a.count '\n' + 1)) := by
  obtain ⟨tokens, last, htokens, hend, hjoined, -⟩ := Lexer.drain_joined hnone b
  rw [hjoined, htokens]
  exact filter_keeps_joined hend _

/-- Lines that are in order, and not in front of one that can be written, can be written up to some
place and not behind it. -/
theorem takeWhile_isWritable {lo : Int} (hlo : Number.isWritable lo = true) {tokens : List Token}
    (hsorted : (tokens.map (·.line)).Pairwise (· ≤ ·)) (hle : ∀ t ∈ tokens, lo ≤ t.line) :
    tokens.takeWhile (Number.isWritable ·.line) = tokens.filter (Number.isWritable ·.line) := by
  induction tokens with
  | nil => rfl
  | cons t tokens ih =>
    rw [List.map_cons, List.pairwise_cons] at hsorted
    obtain ⟨hbehind, hsorted⟩ := hsorted
    obtain ⟨ht, hle⟩ := List.forall_mem_cons.mp hle
    cases hwritable : Number.isWritable t.line with
    | true => simp only [List.takeWhile_cons, List.filter_cons, hwritable, if_true, ih hsorted hle]
    | false =>
      have hnone : ∀ u ∈ tokens, ¬ Number.isWritable u.line = true := by
        intro u hu hwritten
        have hmiddle := Number.isWritable_of_le_of_le hlo hwritten ht
          (hbehind _ (List.mem_map_of_mem hu))
        rw [hwritable] at hmiddle
        cases hmiddle
      simp [hwritable, List.filter_eq_nil_iff.mpr hnone]

section
variable {includeComments : Bool} {source : Text} {first : Int} {logical : Bool} {a : Text}
  (hnone : (Lexer.start source first logical a).drain.failure = none)
  (hwrite : ∀ t ∈ (Lexer.start source first logical a).drain.tokens,
    Number.isWritable t.line = true)

include hnone hwrite

/-- No line of a second source is in front of the end of the first, which can be written. -/
theorem exists_isWritable_le :
    ∃ lo, Number.isWritable lo = true ∧ ∀ n, first ≤ n → lo ≤ n + (a.count '\n' + 1) := by
  obtain ⟨t, ht, hline⟩ := (Lexer.placed_start source first logical a).exists_last_of_drain hnone
  refine ⟨t.line, hwrite t ht, fun n hn => ?_⟩
  omega

theorem isWritable_moved {n hi : Int} (hn : first ≤ n) (hhi : Number.isWritable hi = true)
    (hle : n + (a.count '\n' + 1) ≤ hi) : Number.isWritable (n + (a.count '\n' + 1)) = true := by
  obtain ⟨lo, hlo, hfirst⟩ := exists_isWritable_le hnone hwrite
  exact Number.isWritable_of_le_of_le hlo hhi (hfirst n hn) hle

theorem isWritable_joined {b : Text} {hi : Int} (hhi : Number.isWritable hi = true)
    (hle : ∀ t ∈ (Lexer.start source first logical b).drain.tokens,
      t.line + (a.count '\n' + 1) ≤ hi) :
    ∀ t ∈ (Lexer.start source first logical (a ++ '\n' :: b)).drain.tokens,
      Number.isWritable t.line = true := by
  obtain ⟨tokens, last, htokens, -, hjoined, -⟩ := Lexer.drain_joined hnone b
  intro t ht
  rw [hjoined] at ht
  rcases List.mem_append.mp ht with ht | ht
  · exact hwrite t (htokens ▸ List.mem_append_left _ ht)
  · obtain ⟨u, hu, rfl⟩ := List.mem_map.mp ht
    obtain ⟨n, -, hline⟩ := (Lexer.placed_start source first logical b).line_of_mem_drain u hu
    exact isWritable_moved hnone hwrite (by omega) hhi (hle u hu)

/-- What is delivered of the joined sources is what is delivered of both, as far as it can be
written. -/
theorem delivered_joined {b : Text}
    (hwrite' : ∀ t ∈ (Lexer.start source first logical b).drain.tokens,
      Number.isWritable t.line = true) :
    let run := fun t => (Lexer.start source first logical t).drain
    let scan := fun t => ofDrained includeComments source t (run t)
    (scan (a ++ '\n' :: b)).delivered = ((run a).tokens.filter (keeps includeComments) ++
      (scan b).delivered.map (Token.shift (a.count '\n' + 1))).filter
        (Number.isWritable ·.line) := by
  intro run scan
  obtain ⟨tokens, last, htokens, hend, hjoined, -⟩ := Lexer.drain_joined hnone b
  obtain ⟨lo, hlo, hfirst⟩ := exists_isWritable_le hnone hwrite
  have hwritten : ∀ t ∈ tokens, Number.isWritable t.line = true := fun t ht =>
    hwrite t (htokens ▸ List.mem_append_left _ ht)
  have hmoved : ((run b).tokens.map (Token.shift (a.count '\n' + 1))).takeWhile
      (Number.isWritable ·.line) =
        ((run b).tokens.map (Token.shift (a.count '\n' + 1))).filter
          (Number.isWritable ·.line) := by
    refine takeWhile_isWritable hlo ?_ ?_
    · rw [List.map_map]
      have hsorted := (Lexer.start source first logical b).lines_drain.1
      rw [List.pairwise_map] at hsorted ⊢
      exact hsorted.imp fun hle => Int.add_le_add_right hle _
    · intro t ht
      obtain ⟨u, hu, rfl⟩ := List.mem_map.mp ht
      obtain ⟨n, -, hline⟩ := (Lexer.placed_start source first logical b).line_of_mem_drain u hu
      exact hfirst u.line (by omega)
  have hall : tokens ++ ((run b).tokens.map (Token.shift (a.count '\n' + 1))).filter
      (Number.isWritable ·.line) =
        (tokens ++ (run b).tokens.map (Token.shift (a.count '\n' + 1))).filter
          (Number.isWritable ·.line) := by
    rw [List.filter_append, List.filter_eq_self.mpr hwritten]
  rw [delivered_ofDrained, delivered_eq_filter hwrite', htokens, ← filter_keeps_joined hend,
    hjoined, List.takeWhile_append_of_pos hwritten, hmoved, hall, List.filter_filter,
    List.filter_filter]
  exact List.filter_congr fun t _ => Bool.and_comm _ _

end

section
variable {includeComments : Bool} {source : Text} {settings : Settings} {a b : Text}
  {first : Summary} (hfirst : (ofText includeComments source settings a).outcome = .ok first)

include hfirst

theorem ofText_joined_ok {second : Summary}
    (hsecond : (ofText includeComments source settings b).outcome = .ok second) :
    let joined := ofText includeComments source settings (a ++ '\n' :: b)
    let tokens := first.tokens ++ second.tokens.map (Token.shift (a.count '\n' + 1))
    joined.delivered = tokens.filter (Number.isWritable ·.line) ∧
      if Number.isWritable (settings.firstLine + ((a ++ '\n' :: b).count '\n' : Nat)) then
        ∃ summary, joined.outcome = .ok summary ∧ summary.tokens = tokens
      else joined.outcome = .error .lineTooLong := by
  intro joined tokens
  obtain ⟨hnone, hwrite, rfl⟩ := outcome_eq_ok_iff.mp hfirst
  obtain ⟨hnone', hwrite', rfl⟩ := outcome_eq_ok_iff.mp hsecond
  obtain ⟨_, _, -, -, hjoined, hfailure⟩ := Lexer.drain_joined hnone b
  have hplaced := Lexer.placed_start source settings.firstLine settings.logical b
  have hcount : (a ++ '\n' :: b).count '\n' = a.count '\n' + (b.count '\n' + 1) := by
    simp [List.count_append]
  refine ⟨?_, ?_⟩
  · refine (delivered_joined hnone hwrite hwrite').trans ?_
    rw [delivered_eq_filter hwrite']
  cases hlast : Number.isWritable
      (settings.firstLine + ((a ++ '\n' :: b).count '\n' : Nat)) with
  | true =>
    rw [if_pos rfl]
    have hlines := isWritable_joined hnone hwrite hlast fun t ht => by
      obtain ⟨n, hn, hline⟩ := hplaced.line_of_mem_drain t ht
      omega
    refine ⟨_, outcome_eq_ok_iff.mpr ⟨?_, hlines, rfl⟩, filter_keeps_drain_joined hnone⟩
    rw [hfailure, hnone']
    rfl
  | false =>
    -- the end token of the second source is on the last line
    rw [if_neg Bool.false_ne_true]
    obtain ⟨t, ht, hline⟩ := hplaced.exists_last_of_drain hnone'
    refine outcome_eq_lineTooLong_iff.mpr (Or.inl ⟨t.shift (a.count '\n' + 1), ?_, ?_⟩)
    · rw [hjoined]
      exact List.mem_append_right _ (List.mem_map_of_mem ht)
    · have hmoved : (t.shift (a.count '\n' + 1)).line =
          settings.firstLine + ((a ++ '\n' :: b).count '\n' : Nat) := by
        show t.line + _ = _
        omega
      rw [hmoved, hlast]

theorem ofText_joined_error {d : Diagnostic}
    (hd : (ofText includeComments source settings b).outcome = .error (.diagnostic d)) :
    let joined := ofText includeComments source settings (a ++ '\n' :: b)
    let tokens := first.tokens ++ (ofText includeComments source settings b).delivered.map
      (Token.shift (a.count '\n' + 1))
    joined.delivered = tokens.filter (Number.isWritable ·.line) ∧
      if (d.shift (a.count '\n' + 1)).line.all Number.isWritable then
        joined.outcome = .error (.diagnostic (d.shift (a.count '\n' + 1))) ∧
          joined.delivered = tokens
      else joined.outcome = .error .lineTooLong := by
  intro joined tokens
  obtain ⟨hnone, hwrite, rfl⟩ := outcome_eq_ok_iff.mp hfirst
  obtain ⟨hsome, hwrite', -⟩ := outcome_eq_diagnostic_iff.mp hd
  obtain ⟨-, -, -, -, -, hfailure⟩ := Lexer.drain_joined hnone b
  rw [hsome] at hfailure
  obtain ⟨n, -, hline⟩ := (Lexer.placed_start _ _ _ b).line_of_failure hsome
  have hmoved : (d.shift (a.count '\n' + 1)).line =
      some (settings.firstLine + n + (a.count '\n' + 1)) := by
    have hshift : (d.shift (a.count '\n' + 1)).line =
        d.line.map (· + ((a.count '\n' : Int) + 1)) := by
      simp only [Diagnostic.line, Diagnostic.shift, Option.map_map]
      rfl
    rw [hshift, hline]
    rfl
  refine ⟨delivered_joined hnone hwrite hwrite', ?_⟩
  rw [hmoved, Option.all_some]
  cases hlast : Number.isWritable (settings.firstLine + n + (a.count '\n' + 1)) with
  | true =>
    rw [if_pos rfl]
    have hlines := isWritable_joined hnone hwrite hlast fun t ht =>
      Int.add_le_add_right (Lexer.lines_drain _ |>.2 d _ hsome hline t ht) _
    refine ⟨outcome_eq_diagnostic_iff.mpr ⟨hfailure, hlines, fun m hm => ?_⟩, ?_⟩
    · rw [hmoved] at hm
      cases hm
      exact hlast
    · show (ofDrained _ _ _ _).delivered = _ ++ (ofDrained _ _ _ _).delivered.map _
      rw [delivered_eq_filter hlines, delivered_eq_filter hwrite']
      exact filter_keeps_drain_joined hnone
  | false =>
    rw [if_neg Bool.false_ne_true]
    exact outcome_eq_lineTooLong_iff.mpr (Or.inr ⟨_, _, hfailure, hmoved, hlast⟩)

end

end Scan

end LoxLexer
