import LoxLexer.Command.Run
import LoxLexer.Proofs.ArgumentReading
import LoxLexer.Proofs.NormalPath
import LoxLexer.Proofs.SourceNames

/-!
# The command is the scan

What the command writes is what a scan gives: of the bytes of the standard input
or of the script, under its normal path, and with the settings that arguments,
environment and defaults agree on, in this order.  Whatever is printed loses its
control sequences, and nothing else, and goes out line by line up to the first
line that the standard output refuses.

    the settings of a request are those of its items and the environment  (settingsOf_eq)
    the scan of a request is that of its source                           (scanOf_eq)
    what is written of a scan tells it if every line is taken             (tells_scanOutcome)
    else the command breaks off                                           (breaksOff_scanned)
    all of this for every invocation that scans and is not verbose        (invoke_eq_scan)
-/

namespace LoxLexer

/-! ## What is printed -/

namespace Terminal

theorem escapeChar_not_mem_ofNat (n : Nat) : escapeChar ∉ Text.ofNat n := fun hmem => by
  have hdigit : escapeChar.isDigit = false := by decide
  rw [Text.isDigit_of_mem_ofNat hmem] at hdigit
  cases hdigit

theorem escapeChar_not_mem_ofInt (n : Int) : escapeChar ∉ Text.ofInt n :=
  Text.not_mem_ofInt (by decide) (by decide) n

/-- Only the lexeme of a token can hold an escape character. -/
theorem escapeChar_not_mem_token {t : Token} (h : escapeChar ∉ t.lexeme) :
    escapeChar ∉ t.render := by
  have hname : escapeChar ∉ t.kind.name := t.kind.not_mem_name (by decide)
  have hmarks : escapeChar ∉ "Token<".toList ∧ escapeChar ∉ ", ".toList ∧
      escapeChar ∉ ">".toList := by decide
  have hkind := List.not_mem_append (List.not_mem_append hmarks.1 hname) hmarks.2.1
  have hlexeme := List.not_mem_append (List.not_mem_append hkind h) hmarks.2.1
  have hline := List.not_mem_append hlexeme (escapeChar_not_mem_ofInt t.line)
  exact List.not_mem_append hline hmarks.2.2

/-- Only the name of a source can hold an escape character. -/
theorem escapeChar_not_mem_summary {s : Summary} (h : escapeChar ∉ s.source) :
    escapeChar ∉ s.render := by
  have hwords : escapeChar ∉ ": ".toList ∧ escapeChar ∉ " tokens, ".toList ∧
      escapeChar ∉ " comments, ".toList ∧ escapeChar ∉ " lines".toList := by decide
  have hname := List.not_mem_append h hwords.1
  have htokens := List.not_mem_append
    (List.not_mem_append hname (escapeChar_not_mem_ofNat s.tokens.length)) hwords.2.1
  have hcomments := List.not_mem_append
    (List.not_mem_append htokens (escapeChar_not_mem_ofNat s.commentCount)) hwords.2.2.1
  exact List.not_mem_append
    (List.not_mem_append hcomments (escapeChar_not_mem_ofNat s.lineCount)) hwords.2.2.2

end Terminal

namespace Command

theorem printed_of_not_mem {t : Text} (h : Terminal.escapeChar ∉ t) : printed t = t ++ ['\n'] := by
  refine Terminal.plain_of_not_mem fun hmem => ?_
  rcases List.mem_append.mp hmem with hmem | hmem
  · exact h hmem
  · exact absurd hmem (by decide)

/-! ## Settings and sources -/

/-- The settings that count: what the items say, else the environment, else the defaults. -/
def effectiveSettings (i : Invocation) (items : List Arguments.Item) : Settings where
  firstLine :=
    (((Arguments.lastFirstLine items).bind fun v => (Number.readInteger v).toOption).or
      (Settings.firstLineOf i.environment)).getD 1
  logical :=
    if items.contains (.switch .noLogical) then false
    else (Settings.logicalOf i.environment).getD true
  encoding :=
    .ofCodecs i.platform.codecs ((Settings.encodingOf i.environment).getD "utf-8".toList)

/-- What is scanned when these scripts are given, by its name and its bytes. -/
inductive SourceOf (i : Invocation) : List Text → Text → Bytes → Prop
  | standardInput : SourceOf i [] standardInputName i.standardInput
  | script {path : Text} {content : Bytes} (h : i.files path = .file content) :
      SourceOf i [path] (Path.normal path) content

theorem settingsOf_eq (i : Invocation) (items : List Arguments.Item) (script : Option Text) :
    settingsOf i (Arguments.scanRequest items script) = effectiveSettings i items := by
  have hfirst : ∀ given : Option Int,
      given.getD ((Settings.firstLineOf i.environment).getD 1) =
        (given.or (Settings.firstLineOf i.environment)).getD 1 := fun given => by
    cases given <;> rfl
  have hlogical : ∀ set denied : Bool,
      (set && !denied) = if denied then false else set := by decide
  simp only [settingsOf, Arguments.scanRequest, effectiveSettings, Settings.ofEnvironment, hfirst,
    hlogical]
  rfl

/-- The file that is scanned is the one that was given, be its path normal or not. -/
theorem file_normal {files : Files} (hfiles : files.Steady) {path : Text} {content : Bytes}
    (h : files path = .file content) (includeComments : Bool) (settings : Settings) :
    Scan.file includeComments files (Path.normal path) settings =
      (Scan.run includeComments (Path.normal path) settings (.reader (.ok (.bytes content)))).cons
        ⟨.debug, "Reading ".toList ++ Path.normal path⟩ := by
  simp only [Scan.file, Path.normal_normal, hfiles path content h]

theorem scanOf_eq {i : Invocation} (hfiles : i.files.Steady) {items : List Arguments.Item}
    {script : Option Text} (h : Arguments.ScriptOf i.files (Arguments.scripts items) script) :
    ∃ name content, SourceOf i (Arguments.scripts items) name content ∧
      let scan := Scan.run (!items.contains (.switch .noComments)) name
        (effectiveSettings i items) (.reader (.ok (.bytes content)))
      (scanOf i (Arguments.scanRequest items script)).delivered = scan.delivered ∧
        (scanOf i (Arguments.scanRequest items script)).outcome = scan.outcome := by
  rw [scanOf, settingsOf_eq]
  generalize Arguments.scripts items = paths at h ⊢
  cases h with
  | none => exact ⟨_, _, .standardInput, rfl, rfl⟩
  | file hfile =>
    refine ⟨_, _, .script hfile, ?_⟩
    simp only [Arguments.scanRequest, file_normal hfiles hfile, Scan.delivered_cons,
      Scan.outcome_cons, and_self]

/-! ## What is written -/

/-- What is written tells what a scan delivers and what it comes to.  Every line is printed without
its control sequences; one that has no escape character is printed as it is. -/
structure Tells (out : Outcome) (quiet : Bool) (name : Text) (scan : Scan) : Prop where
  tokens : quiet = false →
    out.stdout = scan.delivered.flatMap fun t => Terminal.plain (t.render ++ ['\n'])
  tokens_verbatim : quiet = false → (∀ t ∈ scan.delivered, Terminal.escapeChar ∉ t.lexeme) →
    out.stdout = scan.delivered.flatMap fun t => t.render ++ ['\n']
  summary : quiet = true → ∀ s, scan.outcome = .ok s →
    let line := name ++ ": ".toList ++ Text.ofNat s.tokens.length ++ " tokens, ".toList ++
      Text.ofNat s.commentCount ++ " comments, ".toList ++ Text.ofNat s.lineCount ++
      " lines".toList ++ ['\n']
    out.stdout = Terminal.plain line ∧ (Terminal.escapeChar ∉ name → out.stdout = line)
  no_summary : quiet = true → ∀ e, scan.outcome = .error e → out.stdout = []
  success_iff : (out.exit.code = 0 ∧ out.stderr = []) ↔ ∃ s, scan.outcome = .ok s
  diagnostic : ∀ d, scan.outcome = .error (.diagnostic d) → out.exit.code = 1 ∧
    out.stderr = Terminal.plain (d.render ++ ['\n']) ∧
      (Terminal.escapeChar ∉ d.render → out.stderr = d.render ++ ['\n'])

/-- Of a scan, only what it delivers and what it comes to is told. -/
theorem Tells.congr {out : Outcome} {quiet : Bool} {name : Text} {scan scan' : Scan}
    (h : Tells out quiet name scan) (hdelivered : scan.delivered = scan'.delivered)
    (houtcome : scan.outcome = scan'.outcome) : Tells out quiet name scan' where
  tokens := hdelivered ▸ h.tokens
  tokens_verbatim := hdelivered ▸ h.tokens_verbatim
  summary := houtcome ▸ h.summary
  no_summary := houtcome ▸ h.no_summary
  success_iff := houtcome ▸ h.success_iff
  diagnostic := houtcome ▸ h.diagnostic

/-- The lines that are to go out: a token each, or the summary alone. -/
def linesOf (quiet : Bool) (scan : Scan) : List Text :=
  if quiet then (scan.outcome.toOption.map fun s => printed s.render).toList
  else scan.delivered.map fun t => printed t.render

/-- The command ends with the complaint about a line, behind these lines. -/
structure BreaksOff (out : Outcome) (before : List Text) (complaint : Text) : Prop where
  stdout_eq : out.stdout = before.flatten
  code_eq : out.exit.code = 3
  stderr_eq : out.stderr = printed ("Internal error: ".toList ++ complaint)

section
variable {p : Platform} {r : ScanRequest} (h : r.verbose = false) {scan : Scan}

include h

theorem scanOutcome_of_ok {s : Summary} (hs : scan.outcome = .ok s)
    (htaken : r.quiet = true → p.refusal? (printed s.render) = none) :
    scanOutcome p r scan = ⟨.success,
      if r.quiet then printed s.render else scan.delivered.flatMap (printed ·.render), []⟩ := by
  cases hquiet : r.quiet with
  | true =>
    have hwrite := Platform.write_of_taken (htaken hquiet)
    simp [scanOutcome, hs, h, hquiet, Except.bind, closing, hwrite]
  | false => simp [scanOutcome, hs, h, hquiet, Except.bind, closing]

theorem scanOutcome_of_bind {f : Failure} (hf : scan.outcome.bind (closing p r) = .error f) :
    scanOutcome p r scan = ⟨.ofFailure f,
      if r.quiet then [] else scan.delivered.flatMap (printed ·.render), printed f.headline⟩ := by
  simp [scanOutcome, hf, h, Failure.report, printed]

theorem scanOutcome_of_error {f : Failure} (hf : scan.outcome = .error f) :
    scanOutcome p r scan = ⟨.ofFailure f,
      if r.quiet then [] else scan.delivered.flatMap (printed ·.render), printed f.headline⟩ := by
  apply scanOutcome_of_bind h
  rw [hf]
  rfl

theorem scanOutcome_of_refused {s : Summary} (hs : scan.outcome = .ok s) (hquiet : r.quiet = true)
    {complaint : Text} (hrefused : p.refusal? (printed s.render) = some complaint) :
    scanOutcome p r scan =
      ⟨.internalError, [], printed ("Internal error: ".toList ++ complaint)⟩ := by
  have hbind : scan.outcome.bind (closing p r) = .error (.internal complaint) := by
    rw [hs]
    show closing p r s = _
    rw [closing, hquiet, Bool.true_or, if_pos rfl, Platform.write_of_refused hrefused]
  rw [scanOutcome_of_bind h hbind, hquiet]
  rfl

theorem tells_scanOutcome {name : Text} (hname : ∀ s, scan.outcome = .ok s → s.source = name)
    (htaken : ∀ line ∈ linesOf r.quiet scan, p.refusal? line = none) :
    Tells (scanOutcome p r scan) r.quiet name scan := by
  have htaken' : ∀ s, scan.outcome = .ok s → r.quiet = true →
      p.refusal? (printed s.render) = none := fun s hs hquiet =>
    htaken _ (by simp [linesOf, hquiet, hs, Except.toOption])
  have hstdout : r.quiet = false →
      (scanOutcome p r scan).stdout = scan.delivered.flatMap (printed ·.render) := fun hquiet => by
    cases ho : scan.outcome with
    | ok s => simp [scanOutcome_of_ok h ho (htaken' s ho), hquiet]
    | error f => simp [scanOutcome_of_error h ho, hquiet]
  refine ⟨hstdout, ?_, ?_, ?_, ?_, ?_⟩
  · intro hquiet hescape
    rw [hstdout hquiet]
    exact List.flatMap_congr fun t ht =>
      printed_of_not_mem (Terminal.escapeChar_not_mem_token (hescape t ht))
  · intro hquiet s hs line
    have hline : s.render ++ ['\n'] = line := by
      rw [Summary.render, hname s hs]
    rw [scanOutcome_of_ok h hs (htaken' s hs), ← hline]
    simp only [hquiet, if_true]
    exact ⟨rfl, fun hescape =>
      printed_of_not_mem (Terminal.escapeChar_not_mem_summary (hname s hs ▸ hescape))⟩
  · intro hquiet f hf
    simp [scanOutcome_of_error h hf, hquiet]
  · cases ho : scan.outcome with
    | ok s => simp [scanOutcome_of_ok h ho (htaken' s ho), Exit.code]
    | error f =>
      have hcode : (Exit.ofFailure f).code ≠ 0 := fun hzero =>
        Exit.ofFailure_ne_success f (Exit.code_injective hzero)
      simp [scanOutcome_of_error h ho, hcode]
  · intro d hd
    rw [scanOutcome_of_error h hd]
    exact ⟨rfl, rfl, printed_of_not_mem⟩

end

section
variable {i : Invocation} {r : ScanRequest}

/-- A scan that comes to its summary with its tokens going out is the scan by itself. -/
theorem scanned_of_ok {s : Summary} (h : (scanned i r).outcome = .ok s) :
    scanned i r = scanOf i r := by
  unfold scanned at h ⊢
  split at h
  · next hquiet => rw [if_pos hquiet]
  · next hquiet =>
    rw [if_neg hquiet]
    rcases Scan.into_cases (fun t => i.platform.refusal? (printed t.render)) (scanOf i r) with
      hsame | ⟨complaint, hcomplaint⟩
    · exact hsame
    · rw [hcomplaint] at h
      cases h

/-- If every line is taken, the tokens of the scan go out. -/
theorem scanned_of_taken
    (h : ∀ line ∈ linesOf r.quiet (scanOf i r), i.platform.refusal? line = none) :
    scanned i r = scanOf i r := by
  cases hquiet : r.quiet with
  | true => rw [scanned, hquiet, if_pos rfl]
  | false =>
    rw [scanned, hquiet, if_neg Bool.false_ne_true]
    refine Scan.into_of_taken fun t ht => h _ ?_
    rw [linesOf, hquiet, if_neg Bool.false_ne_true]
    exact List.mem_map_of_mem ht

/-- **The first line that is refused ends the command.**  The lines before it have gone out. -/
theorem breaksOff_scanned (hverbose : r.verbose = false) {before after : List Text}
    {line complaint : Text} (h : linesOf r.quiet (scanOf i r) = before ++ line :: after)
    (hbefore : ∀ l ∈ before, i.platform.refusal? l = none)
    (hline : i.platform.refusal? line = some complaint) :
    BreaksOff (scanOutcome i.platform r (scanned i r)) before complaint := by
  cases hquiet : r.quiet with
  | true =>
    rw [linesOf, hquiet, if_pos rfl] at h
    rw [scanned, hquiet, if_pos rfl]
    cases ho : (scanOf i r).outcome with
    | error f =>
      rw [ho] at h
      simp [Except.toOption] at h
    | ok s =>
      rw [ho] at h
      obtain ⟨rfl, hs⟩ : before = [] ∧ printed s.render = line := by
        cases before with
        | nil => exact ⟨rfl, (List.cons.inj h).1⟩
        | cons l before => simp [Except.toOption] at h
      rw [← hs] at hline
      rw [scanOutcome_of_refused hverbose ho hquiet hline]
      exact ⟨rfl, rfl, rfl⟩
  | false =>
    rw [linesOf, hquiet, if_neg Bool.false_ne_true] at h
    rw [scanned, hquiet, if_neg Bool.false_ne_true]
    obtain ⟨taken, rest, hdelivered, rfl, hrest⟩ := List.map_eq_append_iff.mp h
    obtain ⟨t, others, rfl, rfl, -⟩ := List.map_eq_cons_iff.mp hrest
    obtain ⟨hinto, houtcome⟩ :
        ((scanOf i r).into fun t => i.platform.refusal? (printed t.render)).delivered = taken ∧ _ :=
      Scan.into_of_refused hdelivered (fun u hu => hbefore _ (List.mem_map_of_mem hu)) hline
    rw [scanOutcome_of_error hverbose houtcome, hquiet, hinto, if_neg Bool.false_ne_true]
    exact ⟨List.flatMap_def, rfl, rfl⟩

end

/-- **The command agrees with the scan.**  Whatever arguments ask for a scan that is not verbose,
where no completion is asked for, a source is scanned that they name, with the settings that count.
If the standard output takes every line that is to go out, what is written tells this scan.  The
first line that it refuses ends the command, behind the lines before. -/
theorem invoke_eq_scan (i : Invocation)
    (hcompletion : Settings.lookup i.environment completionVariable = none)
    (hfiles : i.files.Steady) {a : Arguments} {r : ScanRequest}
    (hparse : Arguments.parse i.arguments = .ok a) (hrequest : a.request i.files = .ok (.scan r))
    (hverbose : r.verbose = false) :
    ∃ items name content, Arguments.Reads i.arguments items ∧
      SourceOf i (Arguments.scripts items) name content ∧
      let quiet := items.contains (.switch .quiet)
      let scan := Scan.run (!items.contains (.switch .noComments)) name
        (effectiveSettings i items) (.reader (.ok (.bytes content)))
      ((∀ line ∈ linesOf quiet scan, i.platform.refusal? line = none) →
        Tells (invoke i) quiet name scan) ∧
      ∀ before line after complaint, linesOf quiet scan = before ++ line :: after →
        (∀ l ∈ before, i.platform.refusal? l = none) →
          i.platform.refusal? line = some complaint → BreaksOff (invoke i) before complaint := by
  obtain ⟨items, hreads, rfl⟩ := Arguments.parse_eq_ok_iff.mp hparse
  obtain ⟨script, hscript, rfl⟩ := Arguments.request_eq_scan hrequest
  obtain ⟨name, content, hsource, hdelivered, houtcome⟩ := scanOf_eq hfiles hscript
  refine ⟨items, name, content, hreads, hsource, ?_⟩
  intro quiet scan
  have hinvoke : invoke i = scanOutcome i.platform (Arguments.scanRequest items script)
      (scanned i (Arguments.scanRequest items script)) := by
    rw [invoke, hcompletion]
    simp only [run, hparse, hrequest]
  have hlines : linesOf quiet scan =
      linesOf quiet (scanOf i (Arguments.scanRequest items script)) := by
    rw [linesOf, linesOf, hdelivered, houtcome]
  rw [hinvoke, hlines]
  constructor
  · intro htaken
    rw [scanned_of_taken htaken]
    refine (tells_scanOutcome hverbose (fun s hs => ?_) htaken).congr hdelivered houtcome
    exact Scan.source_of_run (houtcome.symm.trans hs)
  · intro before line after complaint hbefore htaken hrefused
    exact breaksOff_scanned hverbose hbefore htaken hrefused

/-- A script by a path that is not normal, a number given twice, and an output of Latin characters
alone: the second token is refused, and the error behind it is not met. -/
theorem invoke_eq_scan_script :
    let tree :=
      FileTree.ofNames [] [("a.lox".toList, Encoding.Utf8.encode "x // c\n\"€\" @".toList)]
    let refused : Text := "'latin-1' codec can't encode character".toList
    let i : Invocation :=
      { arguments := ["--no-comments".toList, "--first-line=7".toList, "./a.lox".toList]
        environment := [("PYLOX_FIRST_LINE".toList, "3".toList)]
        standardInput := []
        files := tree.find
        platform :=
          { refusal? := fun t => if t.all (·.toNat < 256) then none else some refused } }
    Settings.lookup i.environment completionVariable = none ∧
      (invoke i).stdout = "Token<IDENTIFIER, x, 7>\n".toList ∧ (invoke i).exit = .internalError ∧
    ∃ items name content, Arguments.Reads i.arguments items ∧
      SourceOf i (Arguments.scripts items) name content ∧
      let quiet := items.contains (.switch .quiet)
      let scan := Scan.run (!items.contains (.switch .noComments)) name
        (effectiveSettings i items) (.reader (.ok (.bytes content)))
      ((∀ line ∈ linesOf quiet scan, i.platform.refusal? line = none) →
        Tells (invoke i) quiet name scan) ∧
      ∀ before line after complaint, linesOf quiet scan = before ++ line :: after →
        (∀ l ∈ before, i.platform.refusal? l = none) →
          i.platform.refusal? line = some complaint → BreaksOff (invoke i) before complaint := by
  intro tree refused i
  have hfile : tree.find "./a.lox".toList =
      .file (Encoding.Utf8.encode "x // c\n\"€\" @".toList) := by
    decide +kernel
  have hreads : Arguments.Reads i.arguments
      [.switch .noComments, .firstLine "7".toList, .positional "./a.lox".toList] :=
    .long (by decide) (.joinedFirstLine _ (.positional (by decide) .nil))
  have hscript : Arguments.scriptValue i.files (some "./a.lox".toList) =
      .ok (some "a.lox".toList) := by
    simp only [Arguments.scriptValue, i, hfile]
    rfl
  have hrequest : Arguments.request i.files ⟨[.noComments], some "7".toList, ["./a.lox".toList]⟩ =
      .ok (.scan ⟨some "a.lox".toList, some 7, true, false, false, false⟩) := by
    show (do let script ← Arguments.scriptValue i.files (some "./a.lox".toList); _) = _
    rw [hscript]
    rfl
  exact ⟨by decide, by decide +kernel, by decide +kernel,
    invoke_eq_scan i (by decide) (FileTree.steady_find tree)
      (Arguments.parse_eq_ok_iff.mpr ⟨_, hreads, rfl⟩) hrequest rfl⟩

/-- A control sequence is a lexeme's in the scan, and lost on the way out. -/
theorem invoke_loses_control_sequence :
    let i : Invocation :=
      { arguments := []
        environment := []
        standardInput := Encoding.Utf8.encode "\"\x1b[0m\"".toList
        files := fun _ => .missing }
    let scan := Scan.run true standardInputName (effectiveSettings i [])
      (.reader (.ok (.bytes i.standardInput)))
    Arguments.parse i.arguments = .ok {} ∧
      Arguments.request i.files {} = .ok (.scan ⟨none, none, false, false, false, false⟩) ∧
      scan.delivered = [⟨.string, "\x1b[0m".toList, 1⟩] ∧
      (invoke i).stdout = "Token<STRING, , 1>\n".toList ∧
      (invoke i).stdout ≠ scan.delivered.flatMap fun t => t.render ++ ['\n'] :=
  ⟨Arguments.parse_eq_ok_iff.mpr ⟨[], .nil, rfl⟩, rfl, by decide +kernel, by decide +kernel,
    by decide +kernel⟩

end Command

end LoxLexer
