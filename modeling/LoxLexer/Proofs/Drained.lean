import Mathlib.Data.List.TakeWhile
import LoxLexer.Proofs.LineNumbers
import LoxLexer.Scan

/-!
# Runs to the end or to the first error

What a drained lexer says about the calls it is made of, and when the scan of a
source succeeds.

    what every call keeps and gives holds of all drained tokens        (forall_mem_drain)
    a scan succeeds when its run does and every line can be written    (outcome_eq_ok_iff)
-/

namespace LoxLexer

theorem Starts.ne_byteOrderMark {logical : Bool} {c : Char} (h : Starts logical c) :
    c ≠ Input.byteOrderMark := by
  have hp : ∀ p ∈ Kind.punctuation, p.1 ≠ Input.byteOrderMark := by decide
  have hc : ∀ p ∈ Kind.comparisons, p.1 ≠ Input.byteOrderMark := by decide
  have hl : ∀ p ∈ Kind.logical, p.1 ≠ Input.byteOrderMark := by decide
  cases h with
  | punctuation h => exact hp _ h
  | comparison h => exact hc _ h
  | operator _ h => exact hl _ h
  | slash | quote => decide
  | word h =>
    rintro rfl
    have hmark : isWordChar Input.byteOrderMark = false := by decide +kernel
    rw [hmark] at h
    cases h

namespace Lexer

theorem drain_of_front_nil {l : Lexer} (h : l.front = []) :
    l.drain = ⟨[l.finish.endToken], none, l.finish⟩ := drain_of_none (next_of_front_nil h).1

theorem drain_of_next_token {l : Lexer} {t : Token} (h : l.front ≠ []) (ht : l.next.1 = .token t) :
    l.drain = { l.next.2.drain with tokens := t :: l.next.2.drain.tokens } := by
  refine drain_of_token ?_
  rw [step?_of_front_ne_nil h, ht]

theorem drain_of_next_error {l : Lexer} {d : Diagnostic} (h : l.front ≠ [])
    (hd : l.next.1 = .error d) : l.drain = ⟨[], some d, l.next.2⟩ := by
  refine drain_of_error ?_
  rw [step?_of_front_ne_nil h, hd]

/-- A run does not depend on spaces that were passed before it. -/
theorem drain_advance {l : Lexer} {u s : Text} (hr : l.cursor.rest = u ++ s)
    (hu : ∀ c ∈ u, isSpace c = true) : (l.advance u s).drain = l.drain := by
  have hstep := step?_advance hr hu
  cases h : l.step? with
  | none => rw [drain_of_none h, drain_of_none (hstep.trans h), finish_advance hr hu]
  | some p =>
    obtain ⟨e, l'⟩ := p
    cases e with
    | token t => rw [drain_of_token h, drain_of_token (hstep.trans h)]
    | error d => rw [drain_of_error h, drain_of_error (hstep.trans h)]

/-- If every call keeps `Q` and, where `Q` holds, yields only tokens with `P`, then all drained
tokens have `P`. -/
theorem forall_mem_drain {P : Token → Prop} {Q : Lexer → Prop}
    (hnext : ∀ l : Lexer, Q l → Q l.next.2)
    (htoken : ∀ (l : Lexer) (t : Token), Q l → l.next.1 = .token t → P t) (l : Lexer) (h : Q l) :
    ∀ t ∈ l.drain.tokens, P t := by
  induction l using induction_on_next with
  | h l ih =>
    by_cases hf : l.front = []
    · intro t ht
      rw [drain_of_front_nil hf, List.mem_singleton] at ht
      subst ht
      exact htoken l _ h (by rw [(next_of_front_nil hf).2])
    · cases he : l.next.1 with
      | token t =>
        rw [drain_of_next_token hf he]
        intro u hu
        rcases List.mem_cons.mp hu with rfl | hu
        · exact htoken l _ h he
        · exact ih hf (hnext l h) u hu
      | error d =>
        rw [drain_of_next_error hf he]
        simp

/-- The error that ends a run is what some call yields. -/
theorem exists_event_of_failure {l : Lexer} {d : Diagnostic} (h : l.drain.failure = some d) :
    ∃ n, l.event n = .error d := by
  induction l using induction_on_next with
  | h l ih =>
    by_cases hf : l.front = []
    · rw [drain_of_front_nil hf] at h
      cases h
    · cases he : l.next.1 with
      | token t =>
        rw [drain_of_next_token hf he] at h
        obtain ⟨n, hn⟩ := ih hf h
        refine ⟨n + 1, ?_⟩
        rw [event, after_succ]
        exact hn
      | error e =>
        rw [drain_of_next_error hf he] at h
        cases h
        exact ⟨0, he⟩

/-- The lines of drained tokens lie between the first and the last line of the text. -/
theorem Placed.line_of_mem_drain {l : Lexer} {first : Int} {text : Text}
    (h : l.Placed first text) :
    ∀ t ∈ l.drain.tokens, ∃ n : Nat, n ≤ text.count '\n' ∧ t.line = first + n := by
  refine forall_mem_drain (Q := fun l => l.Placed first text) (fun l hl => hl.next) ?_ l h
  intro l t hl ht
  have hline := hl.line?_next
  rw [ht] at hline
  obtain ⟨n, hn, heq⟩ :=
    exists_lineIn_eq first text (l.cursor.position + l.spaces.length) (.token t)
  exact ⟨n, hn, (Option.some.inj hline).trans heq⟩

/-- The line of the error that ends a run lies there, too. -/
theorem Placed.line_of_failure {l : Lexer} {first : Int} {text : Text} (h : l.Placed first text)
    {d : Diagnostic} (hd : l.drain.failure = some d) :
    ∃ n : Nat, n ≤ text.count '\n' ∧ d.line = some (first + n) := by
  obtain ⟨i, hi⟩ := exists_event_of_failure hd
  have hline := (h.after i).line?_next
  rw [show (l.after i).next.1 = .error d from hi] at hline
  obtain ⟨n, hn, heq⟩ := exists_lineIn_eq first text
    ((l.after i).cursor.position + (l.after i).spaces.length) (.error d)
  rw [heq] at hline
  exact ⟨n, hn, hline⟩

/-- A run that comes to the end has drained a token on the last line. -/
theorem Placed.exists_last_of_drain {l : Lexer} {first : Int} {text : Text}
    (h : l.Placed first text) (hnone : l.drain.failure = none) :
    ∃ t ∈ l.drain.tokens, t.line = first + (text.count '\n' : Nat) := by
  induction l using induction_on_next with
  | h l ih =>
    by_cases hf : l.front = []
    · rw [drain_of_front_nil hf, h.endToken_finish hf]
      exact ⟨_, List.mem_singleton_self _, rfl⟩
    · cases he : l.next.1 with
      | error d =>
        rw [drain_of_next_error hf he] at hnone
        cases hnone
      | token t =>
        rw [drain_of_next_token hf he] at hnone ⊢
        obtain ⟨u, hu, hline⟩ := ih hf h.next hnone
        exact ⟨u, List.mem_cons_of_mem t hu, hline⟩

/-- Draining a lexer is calling it some number of times. -/
theorem exists_run_eq_drain (l : Lexer) :
    ∃ n, (l.run (List.replicate n .next)).1 =
      l.drain.tokens.map .token ++ (l.drain.failure.map .error).toList := by
  induction l using induction_on_next with
  | h l ih =>
    by_cases hf : l.front = []
    · refine ⟨1, ?_⟩
      rw [drain_of_front_nil hf]
      show [l.next.1] = _
      rw [(next_of_front_nil hf).2]
      rfl
    · cases he : l.next.1 with
      | error d =>
        refine ⟨1, ?_⟩
        rw [drain_of_next_error hf he]
        exact congrArg (fun e => [e]) he
      | token t =>
        obtain ⟨n, hn⟩ := ih hf
        refine ⟨n + 1, ?_⟩
        rw [drain_of_next_token hf he]
        show l.next.1 :: (l.next.2.run (List.replicate n .next)).1 = _
        rw [hn, he]
        rfl

/-- The lines of drained tokens are in order, and the line of an error is behind them. -/
theorem lines_drain (l : Lexer) :
    (l.drain.tokens.map (·.line)).Pairwise (· ≤ ·) ∧
      ∀ d n, l.drain.failure = some d → d.line = some n → ∀ t ∈ l.drain.tokens, t.line ≤ n := by
  obtain ⟨n, hn⟩ := l.exists_run_eq_drain
  have hsorted := l.pairwise_filterMap_line? (List.replicate n .next)
  have htokens : (l.drain.tokens.map Event.token).filterMap Event.line? =
      l.drain.tokens.map (·.line) := by
    rw [List.filterMap_map]
    exact congrFun List.filterMap_eq_map _
  rw [hn, List.filterMap_append, htokens, List.pairwise_append] at hsorted
  obtain ⟨htokens, -, hfailure⟩ := hsorted
  refine ⟨htokens, ?_⟩
  intro d m hd hm t ht
  refine hfailure t.line (List.mem_map_of_mem ht) m ?_
  rw [hd]
  show m ∈ List.filterMap Event.line? [.error d]
  rw [List.filterMap_cons_some (show (Event.error d).line? = some m from hm)]
  exact List.mem_singleton_self m

end Lexer

namespace Scan

/-- All tokens come through if all their lines can be written. -/
theorem length_takeWhile_not_lt_iff {tokens : List Token} :
    ¬ (tokens.takeWhile (Number.isWritable ·.line)).length < tokens.length ↔
      ∀ t ∈ tokens, Number.isWritable t.line = true := by
  rw [← List.takeWhile_eq_self_iff]
  constructor
  · intro h
    exact (List.takeWhile_prefix _).eq_of_length_le (Nat.le_of_not_lt h)
  · intro h
    rw [h]
    exact Nat.lt_irrefl _

section
variable {includeComments : Bool} {source text : Text} {run : Lexer.Drained}

/-- A scan succeeds when its run does and the line of every token can be written. -/
theorem outcome_eq_ok_iff {summary : Summary} :
    (ofDrained includeComments source text run).outcome = .ok summary ↔
      run.failure = none ∧ (∀ t ∈ run.tokens, Number.isWritable t.line = true) ∧
        summary = ⟨source, run.tokens.filter (keeps includeComments),
          run.tokens.countP isComment, text.lineCount⟩ := by
  unfold ofDrained
  simp only
  split
  · next hlt =>
    have hnot : ¬ ∀ t ∈ run.tokens, Number.isWritable t.line = true := fun h =>
      length_takeWhile_not_lt_iff.mpr h hlt
    simp [hnot]
  · next hle =>
    have hw := length_takeWhile_not_lt_iff.mp hle
    rw [List.takeWhile_eq_self_iff.mpr hw]
    split
    · next d hd =>
      have hfail : run.failure ≠ none := by simp [hd]
      simp only [hfail, false_and, iff_false]
      split
      · split <;> simp
      · simp
    · next hnone =>
      simp only [Except.ok.injEq]
      constructor
      · intro h
        exact ⟨hnone, hw, h.symm⟩
      · rintro ⟨-, -, rfl⟩
        rfl

/-- A scan reports a diagnostic when its run ends with it and every line can be written. -/
theorem outcome_eq_diagnostic_iff {d : Diagnostic} :
    (ofDrained includeComments source text run).outcome = .error (.diagnostic d) ↔
      run.failure = some d ∧ (∀ t ∈ run.tokens, Number.isWritable t.line = true) ∧
        ∀ n, d.line = some n → Number.isWritable n = true := by
  unfold ofDrained
  simp only
  split
  · next hlt =>
    have hnot : ¬ ∀ t ∈ run.tokens, Number.isWritable t.line = true := fun h =>
      length_takeWhile_not_lt_iff.mpr h hlt
    simp [hnot]
  · next hle =>
    have hw := length_takeWhile_not_lt_iff.mp hle
    split
    · next e he =>
      rw [he]
      split
      · next n hn =>
        split
        · next hwrite =>
          constructor
          · intro h
            cases h
            exact ⟨rfl, hw, fun m hm => by rw [← Option.some.inj (hn.symm.trans hm)]; exact hwrite⟩
          · rintro ⟨h, -⟩
            cases h
            rfl
        · next hwrite =>
          constructor
          · intro h
            cases h
          · rintro ⟨h, -, hall⟩
            cases h
            exact absurd (hall n hn) hwrite
      · next hn =>
        constructor
        · intro h
          cases h
          exact ⟨rfl, hw, fun m hm => by rw [hn] at hm; cases hm⟩
        · rintro ⟨h, -⟩
          cases h
          rfl
    · next hnone => simp [hnone]

/-- A scan fails for a line that cannot be written if it comes to one. -/
theorem outcome_eq_lineTooLong_iff :
    (ofDrained includeComments source text run).outcome = .error .lineTooLong ↔
      (∃ t ∈ run.tokens, Number.isWritable t.line = false) ∨
        ∃ d n, run.failure = some d ∧ d.line = some n ∧ Number.isWritable n = false := by
  have hany : (run.tokens.takeWhile (Number.isWritable ·.line)).length < run.tokens.length ↔
      ∃ t ∈ run.tokens, Number.isWritable t.line = false := by
    rw [← not_iff_not, length_takeWhile_not_lt_iff]
    simp
  rw [← hany]
  unfold ofDrained
  simp only
  split
  · next hlt => exact iff_of_true rfl (Or.inl hlt)
  · next hle =>
    split
    · next d hd =>
      split
      · next n hn =>
        have hfailure : (∃ d n, run.failure = some d ∧ d.line = some n ∧
            Number.isWritable n = false) ↔ Number.isWritable n = false := by simp [hd, hn]
        rw [hfailure]
        cases hwritable : Number.isWritable n <;> simp [hle]
      · next hn => simp [hle, hd, hn]
    · next hnone => simp [hle, hnone]

/-- The tokens that are kept are delivered, up to the first line that cannot be written. -/
theorem delivered_ofDrained :
    (ofDrained includeComments source text run).delivered =
      (run.tokens.takeWhile (Number.isWritable ·.line)).filter (keeps includeComments) := by
  have hentry : ∀ e : LogEntry, [Step.silent e].filterMap (·.token) = [] := fun _ => rfl
  rw [delivered, ← filterMap_tokenStep includeComments source]
  unfold ofDrained
  simp only
  split
  · rfl
  · split
    · split
      · split
        · simp only [List.filterMap_append, filterMap_silent, List.append_nil]
        · rfl
      · rfl
    · simp only [List.filterMap_append, hentry, List.append_nil]

/-- If every line can be written, the tokens that are kept are delivered. -/
theorem delivered_eq_filter (h : ∀ t ∈ run.tokens, Number.isWritable t.line = true) :
    (ofDrained includeComments source text run).delivered =
      run.tokens.filter (keeps includeComments) := by
  rw [delivered_ofDrained, List.takeWhile_eq_self_iff.mpr h]

/-- A scan that succeeds has delivered the tokens of its summary. -/
theorem delivered_of_ok {summary : Summary}
    (h : (ofDrained includeComments source text run).outcome = .ok summary) :
    (ofDrained includeComments source text run).delivered = summary.tokens := by
  obtain ⟨-, hwritable, rfl⟩ := outcome_eq_ok_iff.mp h
  exact delivered_eq_filter hwritable

end

end Scan

end LoxLexer
