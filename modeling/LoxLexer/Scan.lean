import LoxLexer.Input
import LoxLexer.Lexer
import LoxLexer.Path
import LoxLexer.Settings

/-!
# Scanning a whole source

A scan runs a lexer over a source up to its end token or its first error.  It
hands out the tokens it keeps, which are all tokens before the end token or all
but the comments, writes a log, and ends with a summary or a failure.

A token goes into the log, with the number of its line, before it is handed out.
Line numbers of more than `Number.digitLimit` digits are not written; a scan that
would have to write one fails there.  A scan also fails at the first token that
its consumer refuses.

    if no token is refused, the scan stays as it is                 (into_of_taken)
    else it ends at the first one that is refused                   (into_of_refused)
-/

namespace LoxLexer

inductive Level
  | debug
  | info
  deriving DecidableEq, Repr

structure LogEntry where
  level : Level
  message : Text
  deriving DecidableEq, Repr

structure Summary where
  source : Text
  /-- The tokens that were kept, without the end token. -/
  tokens : List Token
  /-- The comments seen, whether kept or not. -/
  commentCount : Nat
  lineCount : Nat
  deriving DecidableEq, Repr

/-- What a scan does at a time: it writes an entry into the log, and then may hand out a token. -/
structure Scan.Step where
  entry : LogEntry
  token : Option Token
  deriving DecidableEq, Repr

structure Scan where
  steps : List Scan.Step
  outcome : Except Failure Summary

/-! ## Algorithm -/

/-- The summary in one line. -/
def Summary.render (s : Summary) : Text :=
  s.source ++ ": ".toList ++ Text.ofNat s.tokens.length ++ " tokens, ".toList ++
    Text.ofNat s.commentCount ++ " comments, ".toList ++ Text.ofNat s.lineCount ++ " lines".toList

namespace Scan

def log (s : Scan) : List LogEntry := s.steps.map (·.entry)

/-- The tokens that are handed out, in order. -/
def delivered (s : Scan) : List Token := s.steps.filterMap (·.token)

def Step.silent (entry : LogEntry) : Step := ⟨entry, none⟩

/-- The scan with one more entry in front of its log. -/
def cons (entry : LogEntry) (s : Scan) : Scan := { s with steps := .silent entry :: s.steps }

def isComment (t : Token) : Bool := t.kind = .comment

/-- Whether a token is kept. -/
def keeps (includeComments : Bool) (t : Token) : Bool :=
  t.kind ≠ .endOfInput && (includeComments || !isComment t)

def tokenEntry (source : Text) (t : Token) : LogEntry :=
  ⟨.debug, source ++ ": ".toList ++ t.render⟩

def tokenStep (includeComments : Bool) (source : Text) (t : Token) : Step :=
  ⟨tokenEntry source t, if keeps includeComments t then some t else none⟩

/-- The log of an error: that it was met, and that the scan ends there. -/
def errorEntries (source : Text) (line : Int) (d : Diagnostic) : List LogEntry :=
  [⟨.debug, source ++ ": scan error at line ".toList ++ Text.ofInt line ++ ": ".toList ++
      d.message⟩,
   ⟨.debug, "Scanning ".toList ++ source ++ " stopped at line ".toList ++ Text.ofInt line ++
      ": ".toList ++ d.message⟩]

def summaryEntry (s : Summary) : LogEntry := ⟨.info, "Scanned ".toList ++ s.render⟩

/-- A scan that came to nothing before its first token. -/
def failed (failure : Failure) : Scan := ⟨[], .error failure⟩

/-- The scan that a lexer's run amounts to. -/
def ofDrained (includeComments : Bool) (source text : Text) (run : Lexer.Drained) : Scan :=
  let written := run.tokens.takeWhile (Number.isWritable ·.line)
  let steps := written.map (tokenStep includeComments source)
  if written.length < run.tokens.length then ⟨steps, .error .lineTooLong⟩
  else
    match run.failure with
    | some d =>
      match d.line with
      | some line =>
        if Number.isWritable line then
          ⟨steps ++ (errorEntries source line d).map .silent, .error (.diagnostic d)⟩
        else ⟨steps, .error .lineTooLong⟩
      | none => ⟨steps, .error (.diagnostic d)⟩
    | none =>
      let summary : Summary :=
        ⟨source, written.filter (keeps includeComments), written.countP isComment, text.lineCount⟩
      ⟨steps ++ [.silent (summaryEntry summary)], .ok summary⟩

def ofText (includeComments : Bool) (source : Text) (settings : Settings) (text : Text) : Scan :=
  ofDrained includeComments source text
    (Lexer.start source settings.firstLine settings.logical text).drain

def run (includeComments : Bool) (source : Text) (settings : Settings) (input : Input) : Scan :=
  match input.load settings.encoding ⟨source, settings.firstLine⟩ with
  | .error failure => failed failure
  | .ok text => ofText includeComments source settings text

/-- The tokens alone, of a source without a name of its own. -/
def tokenize (includeComments : Bool) (settings : Settings) (input : Input) :
    Except Failure (List Token) :=
  (run includeComments "<input>".toList settings input).outcome.map (·.tokens)

/-- A scan of a file, under the name by which it was given. -/
def file (includeComments : Bool) (files : Files) (path : Text) (settings : Settings) : Scan :=
  let normal := Path.normal path
  let opened : LogEntry := ⟨.debug, "Reading ".toList ++ normal⟩
  match files normal with
  | .missing =>
    failed (.system ⟨.missing, "Source file not found: ".toList ++ path⟩)
  | .nameTooLong => failed (.system (.nameTooLong normal))
  | .directory => (failed (.system (.isDirectory normal))).cons opened
  | .file content =>
    (run includeComments path settings (.reader (.ok (.bytes content)))).cons opened

/-! ### Consumers -/

/-- The steps up to the first one whose token is refused, and the complaint about that token. -/
def stepsInto (refusal? : Token → Option Text) : List Step → List Step × Option Text
  | [] => ([], none)
  | step :: steps =>
    match step.token.bind refusal? with
    | some complaint => ([.silent step.entry], some complaint)
    | none => (step :: (stepsInto refusal? steps).1, (stepsInto refusal? steps).2)

/-- The scan when its tokens go to a consumer that may refuse some: it fails at the first of
these. -/
def into (refusal? : Token → Option Text) (s : Scan) : Scan :=
  match stepsInto refusal? s.steps with
  | (steps, some complaint) => ⟨steps, .error (.internal complaint)⟩
  | (_, none) => s

/-! ## Lemmas -/

theorem delivered_cons (entry : LogEntry) (s : Scan) : (s.cons entry).delivered = s.delivered := rfl

theorem outcome_cons (entry : LogEntry) (s : Scan) : (s.cons entry).outcome = s.outcome := rfl

/-- The tokens that are kept are handed out. -/
theorem filterMap_tokenStep (includeComments : Bool) (source : Text) (tokens : List Token) :
    (tokens.map (tokenStep includeComments source)).filterMap (·.token) =
      tokens.filter (keeps includeComments) := by
  induction tokens with
  | nil => rfl
  | cons t tokens ih =>
    rw [List.map_cons, List.filterMap_cons, ih, List.filter_cons]
    cases h : keeps includeComments t <;> simp [tokenStep, h]

theorem filterMap_silent (entries : List LogEntry) :
    (entries.map Step.silent).filterMap (·.token) = [] := by
  induction entries with
  | nil => rfl
  | cons e entries ih => exact ih

section
variable {refusal? : Token → Option Text} {s : Scan}

/-- A consumer changes nothing, or the scan fails with a complaint of it. -/
theorem into_cases (refusal? : Token → Option Text) (s : Scan) :
    s.into refusal? = s ∨
      ∃ complaint, (s.into refusal?).outcome = .error (.internal complaint) := by
  unfold into
  split
  · exact Or.inr ⟨_, rfl⟩
  · exact Or.inl rfl

theorem stepsInto_of_taken {steps : List Step}
    (h : ∀ t ∈ steps.filterMap (·.token), refusal? t = none) :
    stepsInto refusal? steps = (steps, none) := by
  induction steps with
  | nil => rfl
  | cons step steps ih =>
    have hstep : step.token.bind refusal? = none := by
      cases ht : step.token with
      | none => rfl
      | some t =>
        refine h t ?_
        rw [List.filterMap_cons_some ht]
        exact List.mem_cons_self
    have hsteps : ∀ t ∈ steps.filterMap (·.token), refusal? t = none := fun t ht => by
      refine h t ?_
      rw [List.filterMap_cons]
      split
      · exact ht
      · exact List.mem_cons_of_mem _ ht
    rw [stepsInto, hstep, ih hsteps]

/-- A consumer that takes every token changes nothing. -/
theorem into_of_taken (h : ∀ t ∈ s.delivered, refusal? t = none) : s.into refusal? = s := by
  rw [into, stepsInto_of_taken h]

theorem stepsInto_of_refused {steps : List Step} {before after : List Token} {t : Token}
    {complaint : Text} (h : steps.filterMap (·.token) = before ++ t :: after)
    (hbefore : ∀ u ∈ before, refusal? u = none) (ht : refusal? t = some complaint) :
    (stepsInto refusal? steps).1.filterMap (·.token) = before ∧
      (stepsInto refusal? steps).2 = some complaint := by
  induction steps generalizing before with
  | nil => simp at h
  | cons step steps ih =>
    cases hu : step.token with
    | none =>
      rw [List.filterMap_cons_none hu] at h
      obtain ⟨htaken, hcomplaint⟩ := ih h hbefore
      have hstep : step.token.bind refusal? = none := by rw [hu, Option.bind_none]
      rw [stepsInto, hstep]
      exact ⟨(List.filterMap_cons_none hu).trans htaken, hcomplaint⟩
    | some u =>
      rw [List.filterMap_cons_some hu] at h
      cases before with
      | nil =>
        obtain ⟨rfl, -⟩ := List.cons.inj h
        have hstep : step.token.bind refusal? = some complaint := by rw [hu, Option.bind_some, ht]
        rw [stepsInto, hstep]
        exact ⟨rfl, rfl⟩
      | cons v before =>
        obtain ⟨rfl, hrest⟩ := List.cons.inj h
        obtain ⟨hu', hbefore'⟩ := List.forall_mem_cons.mp hbefore
        obtain ⟨htaken, hcomplaint⟩ := ih hrest hbefore'
        have hstep : step.token.bind refusal? = none := by rw [hu, Option.bind_some, hu']
        rw [stepsInto, hstep]
        exact ⟨(List.filterMap_cons_some hu).trans (congrArg (u :: ·) htaken), hcomplaint⟩

/-- The first token that is refused ends the scan, and those before it have been handed out. -/
theorem into_of_refused {before after : List Token} {t : Token} {complaint : Text}
    (h : s.delivered = before ++ t :: after) (hbefore : ∀ u ∈ before, refusal? u = none)
    (ht : refusal? t = some complaint) :
    (s.into refusal?).delivered = before ∧
      (s.into refusal?).outcome = .error (.internal complaint) := by
  obtain ⟨htaken, hcomplaint⟩ := stepsInto_of_refused h hbefore ht
  have hinto : s.into refusal? =
      ⟨(stepsInto refusal? s.steps).1, .error (.internal complaint)⟩ := by
    rw [into]
    split
    · next steps m hm =>
      rw [hm] at hcomplaint ⊢
      cases hcomplaint
      rfl
    · next hm =>
      rw [hm] at hcomplaint
      cases hcomplaint
  rw [hinto]
  exact ⟨htaken, rfl⟩

end

end Scan

end LoxLexer
