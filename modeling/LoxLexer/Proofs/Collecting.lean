import LoxLexer.Proofs.Sharing
import LoxLexer.Proofs.SourceNames

/-!
# Collecting the tokens of a source

A scan is a loop.  It goes through an iterator of a new reader, counts the
comments, hands on every token that it keeps as soon as it has it, and leaves
off at the end token or at the first error.  So it hands on what plain calls
give up to there, and its result, if there is one, is what it has handed on.

    calls come to an end token or an error                              (Settled.exists_runsTo)
    the loop over such calls hands on the kept tokens                   (gatherFrom_of_runsTo)
    a scan is the loop over a new reader                                (ofDrained_of_runsTo)
    all of this for every source that can be read                       (run_eq_collect)
-/

namespace LoxLexer

/-- Whether an iterator leaves off behind an answer. -/
def Answer.isLast : Answer → Bool
  | .ok t => t.kind = .endOfInput
  | .error _ => true

/-- The stop that an answer is, if it is one. -/
def Answer.stop? : Answer → Option Stop
  | .ok _ => none
  | .error e => some e

namespace Iteration

theorem resume_of_goesOn {it : Iteration} (h : it.goesOn = true) (s : Reader) :
    it.resume s = (some s.call.1, afterAnswer s.call.1, s.call.2) := if_pos h

/-- An iterator that hands something out has called its reader. -/
theorem call_of_resume {it it' : Iteration} {s s' : Reader} {a : Answer}
    (h : it.resume s = (some a, it', s')) :
    s.call.1 = a ∧ s.call.2 = s' ∧ afterAnswer a = it' := by
  unfold resume at h
  split at h
  · cases h
    exact ⟨rfl, rfl, rfl⟩
  · cases h

end Iteration

/-- The outcome of a scan that comes to these tokens and then to this answer. -/
def Scan.outcomeOf (includeComments : Bool) (source text : Text) (tokens : List Token) :
    Answer → Except Failure Summary
  | .ok _ => .ok ⟨source, tokens.filter (keeps includeComments), tokens.countP isComment,
      text.lineCount⟩
  | .error e => .error e.failure

namespace Reader

/-! ## Algorithm -/

/-- What the loop has gathered. -/
structure Gathered where
  /-- The tokens handed on, in the order of time. -/
  delivered : List Token
  /-- The tokens of the result. -/
  tokens : List Token
  comments : Nat
  deriving DecidableEq, Repr

/-- Counts a token that is a comment, and hands it on and keeps it unless it is to be left out. -/
def Gathered.receive (includeComments : Bool) (g : Gathered) (t : Token) : Gathered :=
  let counted := if Scan.isComment t then { g with comments := g.comments + 1 } else g
  if Scan.isComment t && !includeComments then counted
  else { counted with tokens := g.tokens ++ [t], delivered := g.delivered ++ [t] }

theorem Settled.front_of_call_ok {s : Reader} (h : s.Settled) {t : Token} (ht : s.call.1 = .ok t)
    (hkind : t.kind ≠ .endOfInput) : s.lexer.front ≠ [] := by
  rw [ne_eq, ← s.lexer.isEnd_next_iff, h.next_of_call_ok ht]
  simp [Event.isEnd, hkind]

/-- A call that comes to a token takes something. -/
theorem Settled.remaining_call_lt {s : Reader} (h : s.Settled) {t : Token} (ht : s.call.1 = .ok t)
    (hkind : t.kind ≠ .endOfInput) : s.call.2.buffer.remaining < s.buffer.remaining := by
  have hlt := Lexer.length_next_lt (h.front_of_call_ok ht hkind)
  rw [← h.lexer_call] at hlt
  exact hlt

/-- The loop over an iterator, behind what has been gathered: what it has gathered at its end, the
stop that it ran into, if any, and the reader. -/
def gatherFrom (includeComments : Bool) (g : Gathered) (it : Iteration) (s : Reader)
    (h : s.Settled) : Gathered × Option Stop × Reader :=
  match hresume : it.resume s with
  | (none, _, s') => (g, none, s')
  | (some (.error e), _, s') => (g, some e, s')
  | (some (.ok t), it', s') =>
    if _h : t.kind = .endOfInput then (g, none, s')
    else
      have hcall := Iteration.call_of_resume hresume
      gatherFrom includeComments (g.receive includeComments t) it' s' (hcall.2.1 ▸ h.call)
termination_by s.buffer.remaining
decreasing_by exact hcall.2.1 ▸ h.remaining_call_lt hcall.1 _h

/-- What is delivered when a reader is gone through, and the outcome. -/
def collect (includeComments : Bool) (s : Reader) (h : s.Settled) :
    List Token × Except Failure Summary :=
  match gatherFrom includeComments ⟨[], [], 0⟩ .unstarted s h with
  | (g, none, s') =>
    (g.delivered, .ok ⟨s.source, g.tokens, g.comments, s'.buffer.text.lineCount⟩)
  | (g, some e, _) => (g.delivered, .error e.failure)

/-! ## Calls up to the last one -/

/-- Plain calls give these tokens, and then the end token or an error. -/
inductive RunsTo : Reader → List Token → Answer → Prop
  | last {s : Reader} (h : s.call.1.isLast = true) : RunsTo s [] s.call.1
  | token {s : Reader} {t : Token} {tokens : List Token} {a : Answer} (ht : s.call.1 = .ok t)
      (hkind : t.kind ≠ .endOfInput) (later : RunsTo s.call.2 tokens a) : RunsTo s (t :: tokens) a

section
variable {s : Reader} {tokens : List Token} {a : Answer}

theorem RunsTo.calls_eq (h : s.RunsTo tokens a) :
    (s.calls (tokens.length + 1)).1 = tokens.map .ok ++ [a] := by
  induction h with
  | last => rfl
  | token ht _ _ ih =>
    rw [List.length_cons, calls_succ, ht, ih]
    rfl

theorem RunsTo.kind_ne (h : s.RunsTo tokens a) : ∀ t ∈ tokens, t.kind ≠ .endOfInput := by
  induction h with
  | last => simp
  | token _ hkind _ ih => exact List.forall_mem_cons.mpr ⟨hkind, ih⟩

theorem RunsTo.isLast (h : s.RunsTo tokens a) : a.isLast = true := by
  induction h with
  | last h => exact h
  | token _ _ _ ih => exact ih

/-- Calls come to an end token or an error. -/
theorem Settled.exists_runsTo (h : s.Settled) : ∃ tokens a, s.RunsTo tokens a := by
  induction hn : s.buffer.remaining using Nat.strongRecOn generalizing s with
  | _ n ih =>
    subst hn
    by_cases hlast : s.call.1.isLast = true
    · exact ⟨[], _, .last hlast⟩
    · cases ht : s.call.1 with
      | error e =>
        rw [ht] at hlast
        exact absurd rfl hlast
      | ok t =>
        have hkind : t.kind ≠ .endOfInput := by simpa [ht, Answer.isLast] using hlast
        obtain ⟨tokens, a, hlater⟩ := ih _ (h.remaining_call_lt ht hkind) h.call rfl
        exact ⟨t :: tokens, a, .token ht hkind hlater⟩

theorem Settled.text_call (h : s.Settled) : s.call.2.buffer.text = s.buffer.text := by
  have htext := s.lexer.text_next
  rw [← h.lexer_call] at htext
  exact htext

/-! ## The loop -/

section
variable {includeComments : Bool} {g : Gathered} {it : Iteration}

theorem gatherFrom_of_last (h : s.Settled) (hgo : it.goesOn = true)
    (hlast : s.call.1.isLast = true) :
    gatherFrom includeComments g it s h = (g, s.call.1.stop?, s.call.2) := by
  rw [gatherFrom]
  split
  · next hresume =>
    rw [Iteration.resume_of_goesOn hgo] at hresume
    cases hresume
  · next hresume =>
    obtain ⟨hanswer, rfl, -⟩ := Iteration.call_of_resume hresume
    rw [hanswer]
    rfl
  · next t it' s' hresume =>
    obtain ⟨ht, rfl, -⟩ := Iteration.call_of_resume hresume
    have hkind : t.kind = .endOfInput := by simpa [ht, Answer.isLast] using hlast
    rw [dif_pos hkind, ht]
    rfl

theorem gatherFrom_of_token (h : s.Settled) (hgo : it.goesOn = true) {t : Token}
    (ht : s.call.1 = .ok t) (hkind : t.kind ≠ .endOfInput) :
    gatherFrom includeComments g it s h =
      gatherFrom includeComments (g.receive includeComments t) (.behind t) s.call.2 h.call := by
  rw [gatherFrom]
  split
  · next hresume =>
    rw [Iteration.resume_of_goesOn hgo] at hresume
    cases hresume
  · next hresume =>
    obtain ⟨hanswer, -⟩ := Iteration.call_of_resume hresume
    rw [ht] at hanswer
    cases hanswer
  · next u it' s' hresume =>
    obtain ⟨hanswer, rfl, rfl⟩ := Iteration.call_of_resume hresume
    obtain rfl : t = u := Except.ok.inj (ht.symm.trans hanswer)
    rw [dif_neg hkind]
    rfl

/-- A token that is received is counted, and kept as the scan keeps it. -/
theorem Gathered.receive_eq (g : Gathered) {t : Token} (hkind : t.kind ≠ .endOfInput) :
    g.receive includeComments t =
      ⟨g.delivered ++ [t].filter (Scan.keeps includeComments),
        g.tokens ++ [t].filter (Scan.keeps includeComments),
        g.comments + [t].countP Scan.isComment⟩ := by
  cases hcomment : Scan.isComment t <;> cases includeComments <;>
    simp [receive, Scan.keeps, hcomment, hkind]

/-- **The loop hands on the kept tokens**, and is left with what comes behind them. -/
theorem gatherFrom_of_runsTo (h : s.Settled) (hgo : it.goesOn = true) (hruns : s.RunsTo tokens a) :
    ∃ s', s'.buffer.text = s.buffer.text ∧ gatherFrom includeComments g it s h =
      (⟨g.delivered ++ tokens.filter (Scan.keeps includeComments),
        g.tokens ++ tokens.filter (Scan.keeps includeComments),
        g.comments + tokens.countP Scan.isComment⟩, a.stop?, s') := by
  induction hruns generalizing g it with
  | last hlast =>
    refine ⟨_, h.text_call, ?_⟩
    rw [gatherFrom_of_last h hgo hlast]
    simp
  | @token s t tokens a ht hkind later ih =>
    obtain ⟨s', htext, hgather⟩ :=
      ih (g := g.receive includeComments t) h.call (Iteration.goesOn_behind hkind)
    refine ⟨s', htext.trans h.text_call, ?_⟩
    rw [gatherFrom_of_token h hgo ht hkind, hgather, g.receive_eq hkind]
    simp only [← List.singleton_append (l := tokens), List.filter_append, List.countP_append,
      List.append_assoc, Nat.add_assoc]

theorem collect_of_runsTo (h : s.Settled) (hruns : s.RunsTo tokens a) :
    collect includeComments s h =
      (tokens.filter (Scan.keeps includeComments),
        Scan.outcomeOf includeComments s.source s.buffer.text tokens a) := by
  have hgo : Iteration.unstarted.goesOn = true := rfl
  obtain ⟨s', htext, hgather⟩ := gatherFrom_of_runsTo (g := ⟨[], [], 0⟩) h hgo hruns
  rw [collect, hgather]
  cases a with
  | ok t => simp [Answer.stop?, Scan.outcomeOf, htext]
  | error e => simp [Answer.stop?, Scan.outcomeOf]

end

end

/-! ## Readers of sources -/

section
variable {source : Text} {settings : Settings} {input : Input} {s : Reader}

theorem exists_load_of_ofInput (h : Reader.ofInput source settings input = .ok s) :
    ∃ text, input.load settings.encoding ⟨source, settings.firstLine⟩ = .ok text ∧
      s = .start source settings.firstLine settings.logical text := by
  unfold Reader.ofInput at h
  cases hload : input.load settings.encoding ⟨source, settings.firstLine⟩ with
  | error f =>
    rw [hload] at h
    cases h
  | ok text =>
    rw [hload] at h
    exact ⟨text, rfl, (Except.ok.inj h).symm⟩

theorem settled_of_ofInput (h : Reader.ofInput source settings input = .ok s) : s.Settled := by
  obtain ⟨text, -, rfl⟩ := exists_load_of_ofInput h
  exact settled_start _ _ _ _

end

end Reader

/-! ## The scan -/

namespace Scan

section
variable (includeComments : Bool) (source text : Text) (run : Lexer.Drained) {t : Token}

theorem ofDrained_cons_of_writable (ht : Number.isWritable t.line = true) :
    let scan := ofDrained includeComments source text { run with tokens := t :: run.tokens }
    let rest := ofDrained includeComments source text run
    scan.delivered = [t].filter (keeps includeComments) ++ rest.delivered ∧
      scan.outcome = rest.outcome.map fun summary =>
        { summary with
          tokens := [t].filter (keeps includeComments) ++ summary.tokens
          commentCount := [t].countP isComment + summary.commentCount } := by
  have hwritten : (t :: run.tokens).takeWhile (Number.isWritable ·.line) =
      [t] ++ run.tokens.takeWhile (Number.isWritable ·.line) := List.takeWhile_cons_of_pos ht
  constructor
  · rw [delivered_ofDrained, delivered_ofDrained, hwritten, List.filter_append]
  · have hlength : ∀ m n : Nat, 1 + m < n + 1 ↔ m < n := fun m n => by omega
    simp only [ofDrained, hwritten, List.filter_append, List.countP_append, List.length_append,
      List.length_cons, List.length_nil, Nat.zero_add, hlength]
    split
    · rfl
    · split
      · split
        · split <;> rfl
        · rfl
      · rfl

theorem ofDrained_cons_of_not_writable (ht : Number.isWritable t.line = false) :
    let scan := ofDrained includeComments source text { run with tokens := t :: run.tokens }
    scan.delivered = [] ∧ scan.outcome = .error .lineTooLong := by
  constructor
  · rw [delivered_ofDrained, List.takeWhile_cons_of_neg (by rw [ht]; exact Bool.false_ne_true)]
    rfl
  · simp [ofDrained, ht]

theorem outcomeOf_cons (tokens : List Token) (a : Answer) :
    outcomeOf includeComments source text (t :: tokens) a =
      (outcomeOf includeComments source text tokens a).map fun summary =>
        { summary with
          tokens := [t].filter (keeps includeComments) ++ summary.tokens
          commentCount := [t].countP isComment + summary.commentCount } := by
  cases a with
  | error e => rfl
  | ok u =>
    simp only [outcomeOf, Except.map]
    rw [← List.filter_append, ← List.countP_append]
    rfl

/-- A run that ends at once delivers nothing. -/
theorem ofDrained_nil (failure : Option Diagnostic) (l : Lexer) :
    let scan := ofDrained includeComments source text ⟨[], failure, l⟩
    scan.delivered = [] ∧ scan.outcome =
      match failure with
      | none => .ok ⟨source, [], 0, text.lineCount⟩
      | some d =>
        if d.line.all Number.isWritable then .error (.diagnostic d) else .error .lineTooLong := by
  constructor
  · rw [delivered_ofDrained]
    rfl
  · cases failure with
    | none => rfl
    | some d =>
      simp only [ofDrained, List.takeWhile_nil, Nat.lt_irrefl, if_false]
      cases d.line with
      | none => rfl
      | some n => cases hn : Number.isWritable n <;> simp [hn]

section
variable {s : Reader} {tokens : List Token} {a : Answer}

/-- Nothing is delivered in front of the last answer, be it the end token, an error or a line that
cannot be written. -/
theorem ofDrained_of_last (h : s.Settled) (hmode : s.mode.isDone = false)
    (hlast : s.call.1.isLast = true) :
    let scan := ofDrained includeComments source text s.lexer.drain
    scan.delivered = [] ∧
      scan.outcome = outcomeOf includeComments source text [] s.call.1 := by
  rw [h.answer_of_not_done hmode] at hlast ⊢
  by_cases hf : s.lexer.front = []
  · rw [(Lexer.next_of_front_nil hf).2, Lexer.drain_of_front_nil hf]
    cases hwrite : Number.isWritable s.lexer.finish.endToken.line with
    | false =>
      rw [Answer.ofEvent, Reader.logged_of_not_writable hwrite]
      exact ofDrained_cons_of_not_writable includeComments source text ⟨[], none, s.lexer.finish⟩
        hwrite
    | true =>
      obtain ⟨hcons, hcons'⟩ :=
        ofDrained_cons_of_writable includeComments source text ⟨[], none, s.lexer.finish⟩ hwrite
      obtain ⟨hdelivered, houtcome⟩ :=
        ofDrained_nil includeComments source text none s.lexer.finish
      rw [Answer.ofEvent, Reader.logged_of_writable hwrite]
      refine ⟨hcons.trans ?_, hcons'.trans ?_⟩
      · rw [hdelivered]
        rfl
      · rw [houtcome]
        rfl
  · cases he : s.lexer.next.1 with
    | token t =>
      have hkind : t.kind ≠ .endOfInput := by
        rw [← s.lexer.isEnd_next_iff, he] at hf
        simpa [Event.isEnd] using hf
      have hwrite : Number.isWritable t.line = false := by
        rw [Bool.eq_false_iff]
        intro hwrite
        rw [he, Answer.ofEvent, Reader.logged_of_writable hwrite] at hlast
        exact hkind (by simpa [Answer.isLast] using hlast)
      rw [Lexer.drain_of_next_token hf he, Answer.ofEvent, Reader.logged_of_not_writable hwrite]
      exact ofDrained_cons_of_not_writable includeComments source text _ hwrite
    | error d =>
      obtain ⟨hdelivered, houtcome⟩ :=
        ofDrained_nil includeComments source text (some d) s.lexer.next.2
      rw [Lexer.drain_of_next_error hf he]
      refine ⟨hdelivered, houtcome.trans ?_⟩
      simp only [Answer.ofEvent, Reader.logged]
      split <;> rfl

/-- **The scan of a drained lexer is the loop's.**  A reader and its lexer come to the same tokens,
and the first line that cannot be written ends both. -/
theorem ofDrained_of_runsTo (h : s.Settled) (hmode : s.mode.isDone = false)
    (hruns : s.RunsTo tokens a) :
    let scan := ofDrained includeComments source text s.lexer.drain
    scan.delivered = tokens.filter (keeps includeComments) ∧
      scan.outcome = outcomeOf includeComments source text tokens a := by
  induction hruns with
  | last hlast => exact ofDrained_of_last includeComments source text h hmode hlast
  | @token s t tokens a ht hkind later ih =>
    have hnext := h.next_of_call_ok ht
    have hfront := h.front_of_call_ok ht hkind
    have hwrite : Number.isWritable t.line = true :=
      (Reader.logged_eq_ok_iff.mp ((h.answer_of_not_done hmode).symm.trans ht)).2
    have hmode' : s.call.2.mode.isDone = false := by
      rw [h.mode_call, if_neg hfront]
      rfl
    obtain ⟨hdelivered, houtcome⟩ := ih h.call hmode'
    rw [h.lexer_call] at hdelivered houtcome
    obtain ⟨hcons, hcons'⟩ :=
      ofDrained_cons_of_writable includeComments source text s.lexer.next.2.drain hwrite
    rw [Lexer.drain_of_next_token hfront hnext]
    refine ⟨?_, ?_⟩
    · rw [hcons, hdelivered, ← List.filter_append]
      rfl
    · rw [hcons', houtcome, outcomeOf_cons]

end

end

section
variable {source : Text} {settings : Settings} {input : Input} {s : Reader}

/-- Without its comments, a scan succeeds or fails as it does with them, and keeps the others. -/
theorem outcomeOf_false {text : Text} {tokens : List Token}
    (hkind : ∀ t ∈ tokens, t.kind ≠ .endOfInput) (a : Answer) :
    outcomeOf false source text tokens a =
      (outcomeOf true source text tokens a).map fun summary =>
        { summary with tokens := summary.tokens.filter fun t => !isComment t } := by
  cases a with
  | error e => rfl
  | ok u =>
    have hall : tokens.filter (keeps true) = tokens :=
      List.filter_eq_self.mpr fun t ht => by simp [keeps, hkind t ht]
    have hsome : tokens.filter (keeps false) = tokens.filter fun t => !isComment t :=
      List.filter_congr fun t ht => by simp [keeps, hkind t ht]
    simp only [outcomeOf, Except.map, hall, hsome]

/-- **A scan collects what plain calls give.**  A reader that is made of a source comes to some
tokens and then to the end token or an error.  Of these tokens the scan delivers those that it
keeps, in order, and so does the loop over an iterator.  At the end token its result has just these
tokens, and the number of all comments and of the lines; an error is passed on as it is.  So leaving
out the comments changes nothing but that, and the tokens alone are those of the result. -/
theorem run_eq_collect (h : Reader.ofInput source settings input = .ok s) :
    ∃ (tokens : List Token) (last : Answer),
      (s.calls (tokens.length + 1)).1 = tokens.map .ok ++ [last] ∧
      (∀ t ∈ tokens, t.kind ≠ .endOfInput) ∧ last.isLast = true ∧
      (∀ includeComments,
        let scan := run includeComments source settings input
        let kept := tokens.filter fun t => includeComments || t.kind ≠ .comment
        (scan.delivered, scan.outcome) = s.collect includeComments (Reader.settled_of_ofInput h) ∧
          scan.delivered = kept ∧
          scan.outcome = match last with
            | .ok _ => .ok ⟨source, kept, tokens.countP isComment, s.buffer.text.lineCount⟩
            | .error e => .error e.failure) ∧
      (run false source settings input).outcome =
        (run true source settings input).outcome.map (fun summary =>
          { summary with tokens := summary.tokens.filter fun t => !isComment t }) ∧
      ∀ includeComments summary,
        (run includeComments source settings input).outcome = .ok summary →
          tokenize includeComments settings input = .ok summary.tokens := by
  have hsettled := Reader.settled_of_ofInput h
  obtain ⟨text, hload, hs⟩ := Reader.exists_load_of_ofInput h
  have hmode : s.mode.isDone = false := by
    rw [hs]
    rfl
  obtain ⟨tokens, last, hruns⟩ := hsettled.exists_runsTo
  have hscan : ∀ includeComments,
      (run includeComments source settings input).delivered =
          tokens.filter (keeps includeComments) ∧
        (run includeComments source settings input).outcome =
          outcomeOf includeComments source text tokens last := by
    intro includeComments
    have hdrained := ofDrained_of_runsTo includeComments source text hsettled hmode hruns
    rw [run_of_load hload]
    rw [hs] at hdrained
    exact hdrained
  have hkept : ∀ includeComments, tokens.filter (keeps includeComments) =
      tokens.filter fun t => includeComments || t.kind ≠ .comment := by
    intro includeComments
    refine List.filter_congr fun t ht => ?_
    simp [keeps, isComment, hruns.kind_ne t ht]
  refine ⟨tokens, last, hruns.calls_eq, hruns.kind_ne, hruns.isLast, ?_, ?_,
    fun includeComments summary => tokenize_of_run hload⟩
  · intro includeComments scan kept
    obtain ⟨hdelivered, houtcome⟩ := hscan includeComments
    have hsource : s.source = source ∧ s.buffer.text = text := by
      rw [hs]
      exact ⟨rfl, rfl⟩
    refine ⟨?_, hdelivered.trans (hkept includeComments), ?_⟩
    · rw [Reader.collect_of_runsTo hsettled hruns, hsource.1, hsource.2]
      exact Prod.ext hdelivered houtcome
    · rw [show scan.outcome = _ from houtcome, hsource.2]
      cases last with
      | error e => rfl
      | ok t => rw [outcomeOf, hkept]
  · rw [(hscan false).2, (hscan true).2, outcomeOf_false hruns.kind_ne]

/-- A comment between two tokens, and then a character that starts no token. -/
theorem run_eq_collect_comment :
    let settings : Settings := {}
    let text := "x // c\ny @".toList
    let s := Reader.start "a.lox".toList 1 true text
    Reader.ofInput "a.lox".toList settings (.content (.text text)) = .ok s ∧
      ∃ (tokens : List Token) (last : Answer),
        (s.calls (tokens.length + 1)).1 = tokens.map .ok ++ [last] ∧ last.isLast = true ∧
          (run false "a.lox".toList settings (.content (.text text))).delivered =
            tokens.filter fun t => t.kind ≠ .comment := by
  intro settings text s
  have hread : Reader.ofInput "a.lox".toList settings (.content (.text text)) = .ok s := rfl
  obtain ⟨tokens, last, hcalls, -, hlast, hscan, -⟩ := run_eq_collect hread
  exact ⟨hread, tokens, last, hcalls, hlast, (hscan false).2.1⟩

end

end Scan

end LoxLexer
