import LoxLexer.Proofs.CommandLine

/-!
# The verbose command is the command

`-v` in front of the arguments adds to what the command writes and changes
nothing of it.  Arguments are sorted out as before and ask for the same, the same
scan is made, and only the writing of its outcome looks at the switch.  So it is
where the standard output takes the summary, which is one line more to write.

    arguments behind the switch are sorted out as without it         (parse_verbose)
    they ask for the same, and for a verbose scan if for one         (request_behind)
    where no scan is asked for, nothing changes                      (invoke_verbose_of_not_asks)
    a scan that succeeds is written with a summary and a log         (undisturbed_of_ok)
    a scan that fails is reported behind a log                       (undisturbed_of_error)
    all of this for every invocation                                 (invoke_verbose)
    a summary that is refused is an internal error                   (invoke_verbose_of_refused)
-/

namespace LoxLexer

/-- The same request, and a verbose one if it is for a scan. -/
def Request.verbose : Request → Request
  | .scan r => .scan { r with verbose := true }
  | r => r

namespace Arguments

/-! ## The switch in front of the arguments -/

/-- What was sorted out, behind a switch. -/
def behind (s : Switch) (a : Arguments) : Arguments := { a with switches := s :: a.switches }

/-- The arguments can be read, and this switch is among them. -/
def Sets (args : List Text) (s : Switch) : Prop := ∃ items, Reads args items ∧ .switch s ∈ items

/-- Every reading of arguments has the same switches. -/
theorem sets_iff_of_reads {args : List Text} {items : List Item} (h : Reads args items)
    (s : Switch) : Sets args s ↔ .switch s ∈ items := by
  constructor
  · rintro ⟨items', h', hmem⟩
    have hsame : add {} items' = add {} items :=
      Except.ok.inj ((parseFrom_of_reads h' {}).symm.trans (parseFrom_of_reads h {}))
    have hswitches : items'.filterMap Item.switch? = items.filterMap Item.switch? :=
      congrArg Arguments.switches hsame
    rw [← mem_filterMap_switch?_iff, ← hswitches, mem_filterMap_switch?_iff]
    exact hmem
  · intro hmem
    exact ⟨items, h, hmem⟩

theorem parseFrom_error (a : Arguments) {arg : Text} (rest : List Text) {e : UsageError}
    (hdashes : arg ≠ "--".toList) (hoption : isOption arg = true) (h : readOption arg = .error e) :
    parseFrom a (arg :: rest) = .error e := by
  rw [parseFrom.eq_def]
  simp only [if_neg hdashes, if_pos hoption, h]

/-- The sorting of arguments never looks at the switches that it has. -/
theorem parseFrom_behind (s : Switch) (a : Arguments) (args : List Text) :
    parseFrom (a.behind s) args = (parseFrom a args).map (behind s) := by
  -- one case for each way to sort out the first argument; none of them takes a switch away
  induction a, args using parseFrom.induct with
  | case1 a =>
    rw [parseFrom.eq_def, parseFrom.eq_def]
    rfl
  | case2 a rest =>
    rw [parseFrom_dashes, parseFrom_dashes]
    rfl
  | case3 a arg rest hdashes hoption e he =>
    rw [parseFrom_error _ rest hdashes hoption he, parseFrom_error _ rest hdashes hoption he]
    rfl
  | case4 a arg rest _ hoption switches hread ih =>
    have hgives := gives_of_readOption hoption hread
    rw [parseFrom_switches _ rest hgives, parseFrom_switches _ rest hgives]
    exact ih
  | case5 a arg rest _ hoption value hread ih =>
    have hgives := gives_of_readOption hoption hread
    rw [parseFrom_joinedFirstLine _ rest hgives, parseFrom_joinedFirstLine _ rest hgives]
    exact ih
  | case6 a arg _ hoption hread =>
    have hgives := gives_of_readOption hoption hread
    rw [parseFrom_firstLine_nil _ hgives, parseFrom_firstLine_nil _ hgives]
    rfl
  | case7 a arg _ hoption hread value rest ih =>
    have hgives := gives_of_readOption hoption hread
    rw [parseFrom_firstLine _ rest value hgives, parseFrom_firstLine _ rest value hgives]
    exact ih
  | case8 a arg rest _ hoption ih =>
    have harg := Bool.eq_false_iff.mpr hoption
    rw [parseFrom_positional _ rest harg, parseFrom_positional _ rest harg]
    exact ih

theorem parse_verbose (args : List Text) :
    parse ("-v".toList :: args) = (parse args).map (behind .verbose) := by
  have hgives : Gives ['-', 'v'] (.switches [.verbose]) :=
    .short (by decide) (.cons (by decide) .nil)
  exact (parseFrom_switches {} args hgives).trans (parseFrom_behind .verbose {} args)

theorem request_behind (files : Files) (a : Arguments) :
    (a.behind .verbose).request files = (a.request files).map Request.verbose := by
  have hinfo : (a.behind .verbose).switches.findSome? informationOf =
      a.switches.findSome? informationOf := rfl
  rw [request, request, hinfo]
  cases hr : a.switches.findSome? informationOf with
  | some r =>
    obtain ⟨s, -, hs⟩ := List.exists_of_findSome?_eq_some hr
    cases s <;> cases hs <;> rfl
  | none =>
    obtain ⟨switches, value, positional⟩ := a
    show (do let first ← firstLineValue value; _) = _
    cases firstLineValue value with
    | error e => rfl
    | ok first =>
      show (do let script ← scriptValue files positional.head?; _) = _
      cases scriptValue files positional.head? with
      | error e => rfl
      | ok script =>
        -- whether there are too many arguments is decided by the first two
        cases positional with
        | nil => rfl
        | cons path more =>
          cases more with
          | nil => rfl
          | cons extra more => rfl

end Arguments

namespace Scan

/-- A scan that succeeds has delivered the tokens of its summary. -/
theorem delivered_of_run {includeComments : Bool} {source : Text} {settings : Settings}
    {input : Input} {s : Summary}
    (h : (run includeComments source settings input).outcome = .ok s) :
    (run includeComments source settings input).delivered = s.tokens := by
  cases hload : input.load settings.encoding ⟨source, settings.firstLine⟩ with
  | error f =>
    rw [run, hload] at h
    cases h
  | ok text =>
    rw [run_of_load hload] at h ⊢
    exact delivered_of_ok h

theorem delivered_of_file {includeComments : Bool} {files : Files} {path : Text}
    {settings : Settings} {s : Summary}
    (h : (file includeComments files path settings).outcome = .ok s) :
    (file includeComments files path settings).delivered = s.tokens := by
  unfold file at h ⊢
  cases hfile : files (Path.normal path) with
  | missing | nameTooLong | directory =>
    simp only [hfile] at h
    cases h
  | file content =>
    simp only [hfile, outcome_cons, delivered_cons] at h ⊢
    exact delivered_of_run h

end Scan

/-- The same invocation with `-v` in front of its arguments. -/
def Invocation.verbose (i : Invocation) : Invocation :=
  { i with arguments := "-v".toList :: i.arguments }

namespace Command

/-! ## The two runs -/

/-- An invocation asks for this scan, and not for the completion of a command line. -/
structure Asks (i : Invocation) (r : ScanRequest) : Prop where
  no_completion : Settings.lookup i.environment completionVariable = none
  exists_arguments : ∃ a, Arguments.parse i.arguments = .ok a ∧ a.request i.files = .ok (.scan r)

theorem Asks.invoke_eq {i : Invocation} {r : ScanRequest} (h : Asks i r) :
    invoke i = scanOutcome i.platform r (scanned i r) := by
  obtain ⟨hcompletion, a, hparse, hrequest⟩ := h
  rw [invoke, hcompletion]
  simp only [run, hparse, hrequest]

theorem Asks.unique {i : Invocation} {r r' : ScanRequest} (h : Asks i r) (h' : Asks i r') :
    r = r' := by
  obtain ⟨-, a, hparse, hrequest⟩ := h
  obtain ⟨-, a', hparse', hrequest'⟩ := h'
  obtain rfl : a = a' := Except.ok.inj (hparse.symm.trans hparse')
  exact Request.scan.inj (Except.ok.inj (hrequest.symm.trans hrequest'))

theorem Asks.verbose {i : Invocation} {r : ScanRequest} (h : Asks i r) :
    Asks i.verbose { r with verbose := true } := by
  obtain ⟨hcompletion, a, hparse, hrequest⟩ := h
  refine ⟨hcompletion, a.behind .verbose, ?_, ?_⟩
  · rw [Invocation.verbose, Arguments.parse_verbose, hparse]
    rfl
  · show (a.behind .verbose).request i.files = _
    rw [Arguments.request_behind, hrequest]
    rfl

/-- Where no scan is asked for, the switch is not even looked at. -/
theorem invoke_verbose_of_not_asks {i : Invocation} (h : ∀ r, ¬ Asks i r) :
    invoke i.verbose = invoke i := by
  have henvironment : i.verbose.environment = i.environment := rfl
  unfold invoke
  rw [henvironment]
  cases hcompletion : Settings.lookup i.environment completionVariable with
  | some instruction => rfl
  | none =>
    simp only [run, Invocation.verbose, Arguments.parse_verbose]
    cases hparse : Arguments.parse i.arguments with
    | error e => rfl
    | ok a =>
      simp only [Except.map, Arguments.request_behind]
      cases hrequest : a.request i.files with
      | error e => rfl
      | ok r =>
        cases r with
        | help | version => rfl
        | scan r => exact absurd ⟨hcompletion, a, hparse, hrequest⟩ (h r)

/-- The switches of a request are those that the arguments set. -/
theorem Asks.sets_iff {i : Invocation} {r : ScanRequest} (h : Asks i r) :
    (Arguments.Sets i.arguments .quiet ↔ r.quiet = true) ∧
      (Arguments.Sets i.arguments .verbose ↔ r.verbose = true) := by
  obtain ⟨-, a, hparse, hrequest⟩ := h
  obtain ⟨items, hreads, rfl⟩ := Arguments.parse_eq_ok_iff.mp hparse
  obtain ⟨script, -, rfl⟩ := Arguments.request_eq_scan hrequest
  simp [Arguments.sets_iff_of_reads hreads, Arguments.scanRequest]

theorem delivered_of_scanOf {i : Invocation} {r : ScanRequest} {s : Summary}
    (h : (scanOf i r).outcome = .ok s) : (scanOf i r).delivered = s.tokens := by
  unfold scanOf at h ⊢
  cases hscript : r.script with
  | none =>
    simp only [hscript, Scan.outcome_cons, Scan.delivered_cons] at h ⊢
    exact Scan.delivered_of_run h
  | some path =>
    simp only [hscript] at h ⊢
    exact Scan.delivered_of_file h

theorem delivered_of_scanned {i : Invocation} {r : ScanRequest} {s : Summary}
    (h : (scanned i r).outcome = .ok s) : (scanned i r).delivered = s.tokens := by
  have hsame := scanned_of_ok h
  rw [hsame] at h ⊢
  exact delivered_of_scanOf h

/-! ## What the switch adds -/

section
variable (p : Platform) (r : ScanRequest) {scan : Scan}

theorem scanOutcome_verbose_of_ok {s : Summary} (hs : scan.outcome = .ok s)
    (htaken : p.refusal? (printed s.render) = none) :
    scanOutcome p { r with verbose := true } scan = ⟨.success,
      (if r.quiet then [] else scan.delivered.flatMap (printed ·.render)) ++ printed s.render,
      logText scan.log⟩ := by
  simp [scanOutcome, hs, Except.bind, closing, Platform.write_of_taken htaken]

theorem scanOutcome_verbose_of_bind {f : Failure}
    (hf : scan.outcome.bind (closing p { r with verbose := true }) = .error f) :
    scanOutcome p { r with verbose := true } scan = ⟨.ofFailure f,
      if r.quiet then [] else scan.delivered.flatMap (printed ·.render),
      logText scan.log ++ printed f.headline ++
        if Exit.ofFailure f = .internalError then p.trace f else []⟩ := by
  simp [scanOutcome, hf, Failure.report, printed]

theorem scanOutcome_verbose_of_error {f : Failure} (hf : scan.outcome = .error f) :
    scanOutcome p { r with verbose := true } scan = ⟨.ofFailure f,
      if r.quiet then [] else scan.delivered.flatMap (printed ·.render),
      logText scan.log ++ printed f.headline ++
        if Exit.ofFailure f = .internalError then p.trace f else []⟩ := by
  apply scanOutcome_verbose_of_bind
  rw [hf]
  rfl

end

/-- What `-v` in front of the arguments of an invocation makes of its outcome: the exit status
stays, a summary comes behind the tokens where none is written yet, and a log stands in front of
what is reported.  Only an internal error has a trace behind its report. -/
structure Undisturbed (i : Invocation) (plain loud : Outcome) : Prop where
  exit : loud.exit = plain.exit
  summary : ∀ r s, Asks i r → (scanned i r).outcome = .ok s →
    ¬ Arguments.Sets i.arguments .quiet → ¬ Arguments.Sets i.arguments .verbose →
      plain.stdout = s.tokens.flatMap (printed ·.render) ∧
        loud.stdout = plain.stdout ++ printed s.render
  no_summary :
    ((∃ r s, Asks i r ∧ (scanned i r).outcome = .ok s) →
      Arguments.Sets i.arguments .quiet ∨ Arguments.Sets i.arguments .verbose) →
      loud.stdout = plain.stdout
  log : ¬ Arguments.Sets i.arguments .verbose → ∃ entries trace,
    loud.stderr = logText entries ++ plain.stderr ++ trace ∧ (trace ≠ [] → loud.exit.code = 3)
  diagnostic : ∀ r d, Asks i r → (scanned i r).outcome = .error (.diagnostic d) →
    ¬ Arguments.Sets i.arguments .verbose →
      plain.stderr = printed d.render ∧
        loud.stderr = logText (scanned i r).log ++ printed d.render

/-- An outcome that is not of a scan, or of one that is verbose already, stays as it is. -/
theorem undisturbed_self {i : Invocation} (out : Outcome)
    (h : ∀ r, Asks i r → r.verbose = true) : Undisturbed i out out where
  exit := rfl
  summary := by
    intro r s hasks _ _ hverbose
    exact absurd (hasks.sets_iff.2.mpr (h r hasks)) hverbose
  no_summary := by
    intro _
    rfl
  log := by
    intro _
    exact ⟨[], [], (List.append_nil _).symm, fun htrace => absurd rfl htrace⟩
  diagnostic := by
    intro r d hasks _ hverbose
    exact absurd (hasks.sets_iff.2.mpr (h r hasks)) hverbose

section
variable {i : Invocation} {r : ScanRequest} (hasks : Asks i r) (hverbose : r.verbose = false)

include hasks hverbose

theorem undisturbed_of_ok {s : Summary} (hs : (scanned i r).outcome = .ok s)
    (htaken : i.platform.refusal? (printed s.render) = none) :
    Undisturbed i (scanOutcome i.platform r (scanned i r))
      (scanOutcome i.platform { r with verbose := true } (scanned i r)) := by
  rw [scanOutcome_of_ok hverbose hs fun _ => htaken, scanOutcome_verbose_of_ok _ r hs htaken,
    delivered_of_scanned hs]
  refine ⟨rfl, ?_, ?_, ?_, ?_⟩
  · intro r' s' hasks' hs' hquiet _
    obtain rfl := hasks.unique hasks'
    obtain rfl : s = s' := Except.ok.inj (hs.symm.trans hs')
    rw [hasks.sets_iff.1] at hquiet
    simp only [if_neg hquiet, and_self]
  · intro hset
    have hquiet : r.quiet = true := by
      rcases hset ⟨r, s, hasks, hs⟩ with hset | hset
      · exact hasks.sets_iff.1.mp hset
      · rw [hasks.sets_iff.2, hverbose] at hset
        cases hset
    simp only [if_pos hquiet, List.nil_append]
  · intro _
    exact ⟨(scanned i r).log, [], by simp, fun htrace => absurd rfl htrace⟩
  · intro r' d hasks' hd _
    obtain rfl := hasks.unique hasks'
    rw [hs] at hd
    cases hd

theorem undisturbed_of_error {f : Failure} (hf : (scanned i r).outcome = .error f) :
    Undisturbed i (scanOutcome i.platform r (scanned i r))
      (scanOutcome i.platform { r with verbose := true } (scanned i r)) := by
  rw [scanOutcome_of_error hverbose hf, scanOutcome_verbose_of_error _ r hf]
  refine ⟨rfl, ?_, ?_, ?_, ?_⟩
  · intro r' s hasks' hs
    obtain rfl := hasks.unique hasks'
    rw [hf] at hs
    cases hs
  · intro _
    rfl
  · intro _
    refine ⟨_, _, rfl, ?_⟩
    -- the trace is what the report of an internal error has behind its headline
    intro htrace
    by_cases hinternal : Exit.ofFailure f = .internalError
    · show (Exit.ofFailure f).code = 3
      rw [hinternal]
      rfl
    · exact absurd (if_neg hinternal) htrace
  · intro r' d hasks' hd _
    obtain rfl := hasks.unique hasks'
    obtain rfl : f = .diagnostic d := Except.error.inj (hf.symm.trans hd)
    refine ⟨rfl, ?_⟩
    have hinternal : Exit.ofFailure (.diagnostic d) ≠ .internalError := by
      intro h
      cases h
    simp only [if_neg hinternal, List.append_nil]
    rfl

/-- A summary that is refused is one line more than the plain command writes, and ends the verbose
one. -/
theorem invoke_verbose_of_refused {s : Summary} (hs : (scanned i r).outcome = .ok s)
    (hquiet : r.quiet = false) {complaint : Text}
    (hrefused : i.platform.refusal? (printed s.render) = some complaint) :
    (invoke i).exit = .success ∧ (invoke i.verbose).exit = .internalError ∧
      (invoke i.verbose).stdout = (invoke i).stdout ∧
      (invoke i.verbose).stderr = logText (scanned i r).log ++
        printed ("Internal error: ".toList ++ complaint) ++
          i.platform.trace (.internal complaint) := by
  have hloud : invoke i.verbose =
      scanOutcome i.platform { r with verbose := true } (scanned i r) := hasks.verbose.invoke_eq
  have hbind : (scanned i r).outcome.bind (closing i.platform { r with verbose := true }) =
      .error (.internal complaint) := by
    rw [hs]
    show closing i.platform { r with verbose := true } s = _
    rw [closing, Bool.or_true, if_pos rfl, Platform.write_of_refused hrefused]
  have hplain := scanOutcome_of_ok (p := i.platform) hverbose hs fun h => by
    rw [hquiet] at h
    cases h
  rw [hloud, hasks.invoke_eq, scanOutcome_verbose_of_bind _ r hbind, hplain, hquiet]
  exact ⟨rfl, rfl, rfl, rfl⟩

end

end Command

end LoxLexer
