import LoxLexer.Proofs.Drained

/-!
# Names of sources

The name of a source only goes into what is reported.  Under another name the
same sources can be read, and they come to the same tokens.

    (l.named source).drain has the tokens of l.drain                    (Lexer.drain_named)
    a source that can be read can be read for any place                 (Input.load_of_load)
    the tokens of a scan do not depend on the name                      (Scan.tokenize_of_run)
-/

namespace LoxLexer

namespace Lexer

/-- The lexer with another name for its source. -/
def named (l : Lexer) (source : Text) : Lexer := { l with source }

theorem next_named (l : Lexer) (source : Text) :
    (l.named source).next.2 = l.next.2.named source ∧
      ((∃ t, l.next.1 = .token t ∧ (l.named source).next.1 = .token t) ∨
        ∃ d e, l.next.1 = .error d ∧ (l.named source).next.1 = .error e) := by
  cases hf : l.front with
  | nil =>
    have hf' : (l.named source).front = [] := hf
    rw [(next_of_front_nil hf).2, (next_of_front_nil hf').2]
    exact ⟨rfl, Or.inl ⟨_, rfl, rfl⟩⟩
  | cons c r =>
    have hf' : (l.named source).front = c :: r := hf
    obtain ⟨-, hevent, hnext⟩ := next_of_front_cons hf
    obtain ⟨-, hevent', hnext'⟩ := next_of_front_cons hf'
    rw [hevent, hevent', hnext, hnext']
    refine ⟨rfl, ?_⟩
    show (∃ t, _ ∧ (l.skipSpace.named source).eventOf (Lexed.read l.logical c r) = _) ∨
      ∃ d e, _ ∧ (l.skipSpace.named source).eventOf (Lexed.read l.logical c r) = _
    generalize Lexed.read l.logical c r = x
    obtain ⟨item, w, s⟩ := x
    cases item with
    | token kind lexeme => exact Or.inl ⟨_, rfl, rfl⟩
    | fault cause =>
      rw [eventOf_fault, eventOf_fault]
      exact Or.inr ⟨_, _, rfl, rfl⟩

/-- Under another name of the source, a run comes to the same tokens. -/
theorem drain_named (l : Lexer) (source : Text) :
    (l.named source).drain.tokens = l.drain.tokens ∧
      ((l.named source).drain.failure = none ↔ l.drain.failure = none) := by
  induction l using induction_on_next with
  | h l ih =>
    obtain ⟨hnext, hevents⟩ := l.next_named source
    by_cases hf : l.front = []
    · have hf' : (l.named source).front = [] := hf
      rw [drain_of_front_nil hf, drain_of_front_nil hf']
      exact ⟨rfl, Iff.rfl⟩
    · have hf' : (l.named source).front ≠ [] := hf
      rcases hevents with ⟨t, ht, ht'⟩ | ⟨d, e, hd, he⟩
      · obtain ⟨htokens, hfailure⟩ := ih hf
        rw [drain_of_next_token hf ht, drain_of_next_token hf' ht', hnext]
        exact ⟨congrArg (t :: ·) htokens, hfailure⟩
      · rw [drain_of_next_error hf hd, drain_of_next_error hf' he]
        exact ⟨rfl, by simp⟩

end Lexer

namespace Input

theorem decode_of_decode {encoding : Encoding} {location : Location} {c : Content} {t : Text}
    (h : decode encoding location c = .ok t) (location' : Location) :
    decode encoding location' c = .ok t := by
  have hbytes : ∀ bs, decodeBytes encoding location bs = .ok t →
      decodeBytes encoding location' bs = .ok t := by
    intro bs hbs
    unfold decodeBytes at hbs ⊢
    cases hdecode : encoding.decode bs with
    | ok u =>
      rw [hdecode] at hbs
      exact hbs
    | error e =>
      rw [hdecode] at hbs
      cases e <;> cases hbs
  cases c with
  | text u => exact h
  | bytes bs => exact hbytes bs h
  | mutableBytes bs => exact hbytes bs h
  | other typeName => cases h

theorem load_content (encoding : Encoding) (location : Location) (c : Content) :
    (content c).load encoding location = (decode encoding location c).map dropMark := by
  show (decode encoding location c >>= fun t => pure (dropMark t)) = _
  cases decode encoding location c <;> rfl

/-- Whether a source can be read does not depend on the place that is reported. -/
theorem load_of_load {encoding : Encoding} {location : Location} {input : Input} {t : Text}
    (h : input.load encoding location = .ok t) (location' : Location) :
    input.load encoding location' = .ok t := by
  have hcontent : ∀ c, (content c).load encoding location = .ok t →
      (content c).load encoding location' = .ok t := by
    intro c hc
    rw [load_content] at hc ⊢
    cases hdecode : decode encoding location c with
    | error e =>
      rw [hdecode] at hc
      cases hc
    | ok u =>
      rw [hdecode] at hc
      rw [decode_of_decode hdecode location']
      exact hc
  cases input with
  | content c => exact hcontent c h
  | reader result =>
    cases result with
    | ok c => exact hcontent c h
    | error e => cases e <;> cases h

end Input

namespace Scan

section
variable {includeComments : Bool} {source text : Text} {settings : Settings} {input : Input}
  {summary : Summary}

theorem ofText_named (h : (ofText includeComments source settings text).outcome = .ok summary)
    (source' : Text) :
    (ofText includeComments source' settings text).outcome =
      .ok { summary with source := source' } := by
  obtain ⟨hnone, hwrite, rfl⟩ := outcome_eq_ok_iff.mp h
  obtain ⟨htokens, hfailure⟩ :=
    (Lexer.start source settings.firstLine settings.logical text).drain_named source'
  refine outcome_eq_ok_iff.mpr ⟨hfailure.mpr hnone, ?_, ?_⟩
  · rwa [← htokens] at hwrite
  · rw [← htokens]
    rfl

theorem run_of_load (h : input.load settings.encoding ⟨source, settings.firstLine⟩ = .ok text) :
    run includeComments source settings input =
      ofText includeComments source settings text := by
  rw [run, h]

/-- A summary has the name of its source. -/
theorem source_of_run (h : (run includeComments source settings input).outcome = .ok summary) :
    summary.source = source := by
  cases hload : input.load settings.encoding ⟨source, settings.firstLine⟩ with
  | error f =>
    rw [run, hload] at h
    cases h
  | ok text =>
    rw [run_of_load hload] at h
    obtain ⟨-, -, rfl⟩ := outcome_eq_ok_iff.mp h
    rfl

/-- The tokens of a scan are those of the source under any name. -/
theorem tokenize_of_run
    (hload : input.load settings.encoding ⟨source, settings.firstLine⟩ = .ok text)
    (h : (run includeComments source settings input).outcome = .ok summary) :
    tokenize includeComments settings input = .ok summary.tokens := by
  rw [run_of_load hload] at h
  rw [tokenize, run_of_load (Input.load_of_load hload _), ofText_named h]
  rfl

end

end Scan

end LoxLexer
