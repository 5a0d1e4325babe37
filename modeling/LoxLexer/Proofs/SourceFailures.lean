import LoxLexer.Proofs.SourceNames
import LoxLexer.Proofs.Verbosity
import LoxLexer.Reader

/-!
# Sources that fail

A source is at hand at once, or when it has been read, and it is text, bytes or
neither.  Reading and decoding may fail.  An error of the system, bytes that are
no text of their encoding, and a name that no text encoding goes by, are reported
as a diagnostic of the source at its first line, if the number of that line can be
written.  Other errors of a reader, a codec that refuses everything and a name that
holds a NUL are not reported: they pass on as they are, and a command ends as with
an error of its own.

    every source gives a text, is of no kind, or fails                  (gives_or_fails)
    a source that fails ends as its error does                          (Fails.exists_load_eq)
    a diagnostic is just what a reported error ends in                  (failures_of_sources)
-/

namespace LoxLexer

/-! ## Errors of sources -/

/-- What can go wrong with a source while it is read or decoded. -/
inductive SourceError
  | reading (e : ReadError)
  | decoding (e : Encoding.DecodeError)
  deriving DecidableEq, Repr

def ReadError.message : ReadError → Text
  | system e => e.message
  | value m => m
  | endOfFile m => m
  | other m => m

namespace SourceError

def message : SourceError → Text
  | reading e => e.message
  | decoding e => e.message

/-- Whether an error is reported as one of the source. -/
def isReported : SourceError → Bool
  | reading (.system _) => true
  | reading _ => false
  | decoding (.malformed _) => true
  | decoding (.unknownEncoding _) => true
  | decoding (.notText _) => true
  | decoding (.complaint _) => true
  | decoding (.refused _) => false
  | decoding .nulInName => false
  | decoding (.other _) => false

/-- The diagnostic of an error that is reported. -/
def diagnostic (location : Location) (e : SourceError) : Diagnostic :=
  ⟨.unreadable e.message, some location, none⟩

/-- What a source fails with: a reported error is a diagnostic of the source, unless its line
cannot be written; any other one keeps its message and counts as internal. -/
inductive EndsIn (location : Location) (e : SourceError) : Failure → Prop
  | reported (h : e.isReported = true) (hline : Number.isWritable location.line = true) :
      EndsIn location e (.diagnostic (e.diagnostic location))
  | unwritten (h : e.isReported = true) (hline : Number.isWritable location.line = false) :
      EndsIn location e .lineTooLong
  | passed {f : Failure} (h : e.isReported = false) (hmessage : f.message = e.message)
      (hexit : Exit.ofFailure f = .internalError) (hkind : ∀ n, f ≠ .unsupported n)
      (hline : f ≠ .lineTooLong) : EndsIn location e f

end SourceError

section
variable {location : Location} {e : SourceError} {f : Failure}

theorem SourceError.EndsIn.of_reported (h : e.EndsIn location f) (he : e.isReported = true)
    (hline : Number.isWritable location.line = true) :
    f = .diagnostic (e.diagnostic location) := by
  cases h with
  | reported => rfl
  | unwritten _ hunwritten =>
    rw [hline] at hunwritten
    cases hunwritten
  | passed hpassed =>
    rw [he] at hpassed
    cases hpassed

theorem SourceError.EndsIn.of_unwritten (h : e.EndsIn location f) (he : e.isReported = true)
    (hline : Number.isWritable location.line = false) : f = .lineTooLong := by
  cases h with
  | reported _ hwritten =>
    rw [hline] at hwritten
    cases hwritten
  | unwritten => rfl
  | passed hpassed =>
    rw [he] at hpassed
    cases hpassed

theorem SourceError.EndsIn.of_passed (h : e.EndsIn location f) (he : e.isReported = false) :
    f.message = e.message ∧ Exit.ofFailure f = .internalError := by
  cases h with
  | reported hreported | unwritten hreported =>
    rw [he] at hreported
    cases hreported
  | passed _ hmessage hexit => exact ⟨hmessage, hexit⟩

/-- A reported error ends as a source does that cannot be read. -/
theorem SourceError.endsIn_unreadable (location : Location) (he : e.isReported = true) :
    e.EndsIn location (Input.unreadable location e.message) := by
  cases hline : Number.isWritable location.line with
  | true =>
    rw [Input.unreadable_of_writable hline]
    exact .reported he hline
  | false =>
    rw [Input.unreadable_of_not_writable hline]
    exact .unwritten he hline

theorem Failure.headline_of_internal (h : Exit.ofFailure f = .internalError) :
    f.headline = "Internal error: ".toList ++ f.message := by
  cases f with
  | diagnostic d => cases h
  | _ => simp only [Failure.headline, h]

end

/-! ## What a source comes to -/

def Content.bytes? : Content → Option Bytes
  | bytes bs => some bs
  | mutableBytes bs => some bs
  | _ => none

namespace Input

/-- What is at hand when a source has been read. -/
inductive AtHand : Input → Content → Prop
  | content (c : Content) : AtHand (.content c) c
  | reader (c : Content) : AtHand (.reader (.ok c)) c

/-- The text of a source, with the mark that may stand in front. -/
inductive Gives (encoding : Encoding) (input : Input) : Text → Prop
  | text {t : Text} (h : input.AtHand (.text t)) : Gives encoding input t
  | bytes {c : Content} {bs : Bytes} {t : Text} (h : input.AtHand c) (hbytes : c.bytes? = some bs)
      (ht : encoding.decode bs = .ok t) : Gives encoding input t

/-- The error that a source meets while it is read or decoded. -/
inductive Fails (encoding : Encoding) : Input → SourceError → Prop
  | reading (e : ReadError) : Fails encoding (.reader (.error e)) (.reading e)
  | decoding {input : Input} {c : Content} {bs : Bytes} {e : Encoding.DecodeError}
      (h : input.AtHand c) (hbytes : c.bytes? = some bs)
      (he : encoding.decode bs = .error e) : Fails encoding input (.decoding e)

section
variable {encoding : Encoding} {input : Input} {c : Content}

theorem AtHand.gives_or_fails (h : input.AtHand c) :
    (∃ t, input.Gives encoding t) ∨ (∃ n, input.AtHand (.other n)) ∨
      ∃ e, input.Fails encoding e := by
  have hdecode : ∀ bs, c.bytes? = some bs →
      (∃ t, input.Gives encoding t) ∨ (∃ n, input.AtHand (.other n)) ∨
        ∃ e, input.Fails encoding e := by
    intro bs hbytes
    cases hd : encoding.decode bs with
    | ok t => exact Or.inl ⟨t, .bytes h hbytes hd⟩
    | error e => exact Or.inr (Or.inr ⟨_, .decoding h hbytes hd⟩)
  cases c with
  | text t => exact Or.inl ⟨t, .text h⟩
  | bytes bs => exact hdecode bs rfl
  | mutableBytes bs => exact hdecode bs rfl
  | other n => exact Or.inr (Or.inl ⟨n, h⟩)

/-- Every source gives a text, is neither text nor bytes, or fails. -/
theorem gives_or_fails (encoding : Encoding) (input : Input) :
    (∃ t, input.Gives encoding t) ∨ (∃ n, input.AtHand (.other n)) ∨
      ∃ e, input.Fails encoding e := by
  cases input with
  | content c => exact (AtHand.content c).gives_or_fails
  | reader result =>
    cases result with
    | ok c => exact (AtHand.reader c).gives_or_fails
    | error e => exact Or.inr (Or.inr ⟨_, .reading e⟩)

theorem AtHand.load_eq (h : input.AtHand c) (location : Location) :
    input.load encoding location = (decode encoding location c).map dropMark := by
  cases h with
  | content => exact load_content encoding location c
  | reader => exact load_content encoding location c

theorem decode_of_bytes {bs : Bytes} (hbytes : c.bytes? = some bs) (location : Location) :
    decode encoding location c = decodeBytes encoding location bs := by
  cases c with
  | text t => cases hbytes
  | other n => cases hbytes
  | bytes _ =>
    cases hbytes
    rfl
  | mutableBytes _ =>
    cases hbytes
    rfl

theorem Gives.load_eq {t : Text} (h : input.Gives encoding t) (location : Location) :
    input.load encoding location = .ok (dropMark t) := by
  cases h with
  | text h =>
    rw [h.load_eq]
    rfl
  | bytes h hbytes ht =>
    rw [h.load_eq, decode_of_bytes hbytes, decodeBytes, ht]
    rfl

theorem AtHand.load_eq_unsupported {n : Text} (h : input.AtHand (.other n))
    (location : Location) : input.load encoding location = .error (.unsupported n) := by
  rw [h.load_eq]
  rfl

/-- **A source that fails ends as its error does.** -/
theorem Fails.exists_load_eq {e : SourceError} (h : input.Fails encoding e)
    (location : Location) :
    ∃ f, input.load encoding location = .error f ∧ e.EndsIn location f := by
  cases h with
  | reading e =>
    cases e with
    | system e => exact ⟨_, rfl, SourceError.endsIn_unreadable location rfl⟩
    | value m | endOfFile m | other m => exact ⟨_, rfl, .passed rfl rfl rfl nofun nofun⟩
  | @decoding _ c bs e h hbytes he =>
    rw [h.load_eq, decode_of_bytes hbytes, decodeBytes, he]
    cases e with
    | malformed _ | unknownEncoding _ | notText _ | complaint _ =>
      exact ⟨_, rfl, SourceError.endsIn_unreadable location rfl⟩
    | refused _ | nulInName | other _ => exact ⟨_, rfl, .passed rfl rfl rfl nofun nofun⟩

end

end Input

/-! ## Readers and scans -/

section
variable {source : Text} {settings : Settings} {input : Input}

theorem Reader.ofInput_eq_map (source : Text) (settings : Settings) (input : Input) :
    Reader.ofInput source settings input =
      (input.load settings.encoding ⟨source, settings.firstLine⟩).map
        (Reader.start source settings.firstLine settings.logical) := by
  rw [Reader.ofInput]
  cases input.load settings.encoding ⟨source, settings.firstLine⟩ <;> rfl

theorem Reader.ofInput_eq_error_iff {f : Failure} :
    Reader.ofInput source settings input = .error f ↔
      input.load settings.encoding ⟨source, settings.firstLine⟩ = .error f := by
  rw [Reader.ofInput_eq_map]
  cases input.load settings.encoding ⟨source, settings.firstLine⟩ <;> simp [Except.map]

/-- A source that no reader can be made of is not scanned at all. -/
theorem Scan.run_of_ofInput_error {f : Failure}
    (h : Reader.ofInput source settings input = .error f) (includeComments : Bool) :
    Scan.run includeComments source settings input = .failed f := by
  rw [Scan.run, Reader.ofInput_eq_error_iff.mp h]

end

/-! ## The command -/

namespace Command

/-- The bytes that a request is about, and their name: a script, or the standard input. -/
inductive Feeds (i : Invocation) (r : ScanRequest) : Text → Bytes → Prop
  | standardInput (h : r.script = none) : Feeds i r standardInputName i.standardInput
  | script {path : Text} {bs : Bytes} (h : r.script = some path)
      (hfile : i.files (Path.normal path) = .file bs) : Feeds i r path bs

theorem Feeds.scanOf_eq {i : Invocation} {r : ScanRequest} {name : Text} {bs : Bytes}
    (h : Feeds i r name bs) :
    let scan := Scan.run (!r.noComments) name (settingsOf i r) (.reader (.ok (.bytes bs)))
    (scanOf i r).delivered = scan.delivered ∧ (scanOf i r).outcome = scan.outcome := by
  unfold scanOf
  cases h with
  | standardInput h =>
    rw [h]
    exact ⟨Scan.delivered_cons _ _, rfl⟩
  | script h hfile =>
    rw [h]
    simp only [Scan.file, hfile, Scan.delivered_cons, Scan.outcome_cons, and_self]

/-- How a command ends whose source fails with this error. -/
structure ToldOf (location : Location) (e : SourceError) (verbose : Bool) (out : Outcome) :
    Prop where
  stdout_eq : out.stdout = []
  reported : e.isReported = true → Number.isWritable location.line = true →
    out.exit.code = 1 ∧ (verbose = false → out.stderr = printed (e.diagnostic location).render)
  unwritten : e.isReported = true → Number.isWritable location.line = false →
    out.exit.code = 3 ∧
      (verbose = false →
        out.stderr = printed ("Internal error: ".toList ++ Failure.lineTooLong.message))
  passed : e.isReported = false →
    out.exit.code = 3 ∧
      (verbose = false → out.stderr = printed ("Internal error: ".toList ++ e.message))

/-- A command whose source fails writes no token, and reports the failure. -/
theorem invoke_of_ofInput_error {i : Invocation} {r : ScanRequest} (hasks : Asks i r)
    {name : Text} {bs : Bytes} (hfeeds : Feeds i r name bs) {f : Failure}
    (h : Reader.ofInput name (settingsOf i r) (.reader (.ok (.bytes bs))) = .error f) :
    (invoke i).stdout = [] ∧ (invoke i).exit = .ofFailure f ∧
      (r.verbose = false → (invoke i).stderr = printed f.headline) := by
  obtain ⟨hdelivered, houtcome⟩ :
      (scanOf i r).delivered = [] ∧ (scanOf i r).outcome = .error f := by
    have hscan := hfeeds.scanOf_eq
    rw [Scan.run_of_ofInput_error h] at hscan
    exact hscan
  -- nothing is delivered, so that nothing can be refused on its way out
  have hlines : linesOf r.quiet (scanOf i r) = [] := by
    simp [linesOf, hdelivered, houtcome, Except.toOption]
  have hscanned : scanned i r = scanOf i r := scanned_of_taken (by simp [hlines])
  rw [hasks.invoke_eq, hscanned]
  refine ⟨?_, ?_, ?_⟩
  · simp [scanOutcome, houtcome, hdelivered, Except.bind]
  · simp [scanOutcome, houtcome, Except.bind]
  · intro hverbose
    rw [scanOutcome_of_error hverbose houtcome]

end Command

/-! ## All sources -/

section
variable {source : Text} {settings : Settings} {input : Input}

/-- No diagnostic comes of a source but those of reported errors. -/
theorem Reader.ofInput_eq_diagnostic_iff {d : Diagnostic} :
    Reader.ofInput source settings input = .error (.diagnostic d) ↔
      Number.isWritable settings.firstLine = true ∧
        ∃ e, input.Fails settings.encoding e ∧ e.isReported = true ∧
          d = e.diagnostic ⟨source, settings.firstLine⟩ := by
  rw [Reader.ofInput_eq_error_iff]
  constructor
  · intro h
    rcases Input.gives_or_fails settings.encoding input with ⟨t, ht⟩ | ⟨n, hn⟩ | ⟨e, he⟩
    · rw [ht.load_eq] at h
      cases h
    · rw [hn.load_eq_unsupported] at h
      cases h
    · obtain ⟨f, hf, hends⟩ := he.exists_load_eq ⟨source, settings.firstLine⟩
      obtain rfl : f = .diagnostic d := Except.error.inj (hf.symm.trans h)
      cases hends with
      | reported hreported hline => exact ⟨hline, e, he, hreported, rfl⟩
      | passed _ _ hexit => cases hexit
  · rintro ⟨hline, e, he, hreported, rfl⟩
    obtain ⟨f, hf, hends⟩ := he.exists_load_eq ⟨source, settings.firstLine⟩
    obtain rfl := hends.of_reported hreported hline
    exact hf

/-- A number that cannot be written stands in the way of the diagnostic alone. -/
theorem Reader.ofInput_eq_lineTooLong_iff :
    Reader.ofInput source settings input = .error .lineTooLong ↔
      Number.isWritable settings.firstLine = false ∧
        ∃ e, input.Fails settings.encoding e ∧ e.isReported = true := by
  rw [Reader.ofInput_eq_error_iff]
  constructor
  · intro h
    rcases Input.gives_or_fails settings.encoding input with ⟨t, ht⟩ | ⟨n, hn⟩ | ⟨e, he⟩
    · rw [ht.load_eq] at h
      cases h
    · rw [hn.load_eq_unsupported] at h
      cases h
    · obtain ⟨f, hf, hends⟩ := he.exists_load_eq ⟨source, settings.firstLine⟩
      obtain rfl : f = .lineTooLong := Except.error.inj (hf.symm.trans h)
      cases hends with
      | unwritten hreported hline => exact ⟨hline, e, he, hreported⟩
      | passed _ _ _ _ hother => exact absurd rfl hother
  · rintro ⟨hline, e, he, hreported⟩
    obtain ⟨f, hf, hends⟩ := he.exists_load_eq ⟨source, settings.firstLine⟩
    obtain rfl := hends.of_unwritten hreported hline
    exact hf

theorem Reader.ofInput_eq_unsupported_iff {n : Text} :
    Reader.ofInput source settings input = .error (.unsupported n) ↔ input.AtHand (.other n) := by
  rw [Reader.ofInput_eq_error_iff]
  constructor
  · intro h
    rcases Input.gives_or_fails settings.encoding input with ⟨t, ht⟩ | ⟨m, hm⟩ | ⟨e, he⟩
    · rw [ht.load_eq] at h
      cases h
    · rw [hm.load_eq_unsupported] at h
      cases h
      exact hm
    · obtain ⟨f, hf, hends⟩ := he.exists_load_eq ⟨source, settings.firstLine⟩
      obtain rfl : f = .unsupported n := Except.error.inj (hf.symm.trans h)
      cases hends with
      | passed _ _ _ hkind _ => exact absurd rfl (hkind n)
  · intro h
    exact h.load_eq_unsupported _

theorem Reader.ofInput_eq_ok_iff {s : Reader} :
    Reader.ofInput source settings input = .ok s ↔
      ∃ t, input.Gives settings.encoding t ∧
        s = .start source settings.firstLine settings.logical (Input.dropMark t) := by
  rw [Reader.ofInput_eq_map]
  constructor
  · intro h
    rcases Input.gives_or_fails settings.encoding input with ⟨t, ht⟩ | ⟨n, hn⟩ | ⟨e, he⟩
    · rw [ht.load_eq] at h
      exact ⟨t, ht, (Except.ok.inj h).symm⟩
    · rw [hn.load_eq_unsupported] at h
      cases h
    · obtain ⟨f, hf, -⟩ := he.exists_load_eq ⟨source, settings.firstLine⟩
      rw [hf] at h
      cases h
  · rintro ⟨t, ht, rfl⟩
    rw [ht.load_eq]
    rfl

/-- A reader can be made of a source that is text or bytes and does not fail. -/
theorem Reader.exists_ofInput_eq_ok_iff :
    (∃ s, Reader.ofInput source settings input = .ok s) ↔
      (∀ n, ¬ input.AtHand (.other n)) ∧ ∀ e, ¬ input.Fails settings.encoding e := by
  constructor
  · rintro ⟨s, hs⟩
    constructor
    · intro n hn
      cases hs.symm.trans (ofInput_eq_unsupported_iff.mpr hn)
    · intro e he
      obtain ⟨f, hf, -⟩ := he.exists_load_eq ⟨source, settings.firstLine⟩
      cases hs.symm.trans (ofInput_eq_error_iff.mpr hf)
  · rintro ⟨hother, hfails⟩
    rcases Input.gives_or_fails settings.encoding input with ⟨t, ht⟩ | ⟨n, hn⟩ | ⟨e, he⟩
    · exact ⟨_, ofInput_eq_ok_iff.mpr ⟨t, ht, rfl⟩⟩
    · exact absurd hn (hother n)
    · exact absurd he (hfails e)

/-- A reader that has been made is in front of its text. -/
theorem Reader.position_of_ofInput {s : Reader}
    (h : Reader.ofInput source settings input = .ok s) : s.buffer.position = 0 := by
  obtain ⟨t, -, rfl⟩ := ofInput_eq_ok_iff.mp h
  rfl

/-- A command ends as the error of its source does. -/
theorem Command.toldOf_invoke {i : Invocation} {r : ScanRequest} {bs : Bytes} {e : SourceError}
    (hasks : Asks i r) (hfeeds : Feeds i r source bs)
    (hfails : (Input.reader (.ok (.bytes bs))).Fails (settingsOf i r).encoding e) :
    ToldOf ⟨source, (settingsOf i r).firstLine⟩ e r.verbose (invoke i) := by
  obtain ⟨f, hf, hends⟩ := hfails.exists_load_eq ⟨source, (settingsOf i r).firstLine⟩
  obtain ⟨hstdout, hexit, hstderr⟩ :=
    invoke_of_ofInput_error hasks hfeeds (Reader.ofInput_eq_error_iff.mpr hf)
  refine ⟨hstdout, ?_, ?_, ?_⟩
  · intro hreported hline
    obtain rfl := hends.of_reported hreported hline
    exact ⟨congrArg Exit.code hexit, hstderr⟩
  · intro hreported hline
    obtain rfl := hends.of_unwritten hreported hline
    exact ⟨congrArg Exit.code hexit, hstderr⟩
  · intro hpassed
    obtain ⟨hmessage, hinternal⟩ := hends.of_passed hpassed
    refine ⟨congrArg Exit.code (hexit.trans hinternal), ?_⟩
    intro hverbose
    rw [hstderr hverbose, Failure.headline_of_internal hinternal, hmessage]

end

/-- **Which failures of sources are reported.**  Of every source, a reader stands at the front of
the text that it gives, without its mark, unless the source is neither text nor bytes, or fails.
It is refused as unsupported just when what is at hand is neither.  It ends in a diagnostic just
when it fails with a reported error and the number of the first line can be written, and the
diagnostic is the one of that error, at the first line; where that number cannot be written, this
is what the source ends in.  Any other error keeps its message and passes on.  In all these cases
a scan delivers nothing and ends with the same failure, and a command that is asked to scan the
source writes no token: it ends as a scan error and with the diagnostic if the error is reported,
and as an internal error otherwise. -/
theorem failures_of_sources (source : Text) (settings : Settings) (input : Input) :
    let made := Reader.ofInput source settings input
    let location : Location := ⟨source, settings.firstLine⟩
    (∀ s, made = .ok s ↔ ∃ t, input.Gives settings.encoding t ∧
      s = .start source settings.firstLine settings.logical (Input.dropMark t)) ∧
    ((∃ s, made = .ok s ∧ s.buffer.position = 0) ↔
      (∀ n, ¬ input.AtHand (.other n)) ∧ ∀ e, ¬ input.Fails settings.encoding e) ∧
    (∀ n, made = .error (.unsupported n) ↔ input.AtHand (.other n)) ∧
    (∀ d, made = .error (.diagnostic d) ↔ Number.isWritable settings.firstLine = true ∧
      ∃ e, input.Fails settings.encoding e ∧ e.isReported = true ∧
        d = ⟨.unreadable e.message, some location, none⟩) ∧
    (made = .error .lineTooLong ↔ Number.isWritable settings.firstLine = false ∧
      ∃ e, input.Fails settings.encoding e ∧ e.isReported = true) ∧
    (∀ e, input.Fails settings.encoding e → e.isReported = false →
      ∃ f, made = .error f ∧ f.message = e.message ∧ Exit.ofFailure f = .internalError) ∧
    (∀ f, made = .error f → ∀ includeComments,
      Scan.run includeComments source settings input = .failed f) ∧
    ∀ (i : Invocation) (r : ScanRequest) (bs : Bytes), Command.Asks i r →
      Command.Feeds i r source bs → Command.settingsOf i r = settings →
      input = .reader (.ok (.bytes bs)) → ∀ e, input.Fails settings.encoding e →
        Command.ToldOf location e r.verbose (Command.invoke i) := by
  intro made location
  refine ⟨fun s => Reader.ofInput_eq_ok_iff, ?_, fun n => Reader.ofInput_eq_unsupported_iff,
    fun d => Reader.ofInput_eq_diagnostic_iff, Reader.ofInput_eq_lineTooLong_iff, ?_,
    fun f hf includeComments => Scan.run_of_ofInput_error hf includeComments, ?_⟩
  · have hmade : (∃ s, made = .ok s) ↔ _ := Reader.exists_ofInput_eq_ok_iff
    rw [← hmade]
    constructor
    · rintro ⟨s, hs, -⟩
      exact ⟨s, hs⟩
    · rintro ⟨s, hs⟩
      exact ⟨s, hs, Reader.position_of_ofInput hs⟩
  · intro e he hpassed
    obtain ⟨f, hf, hends⟩ := he.exists_load_eq location
    obtain ⟨hmessage, hexit⟩ := hends.of_passed hpassed
    exact ⟨f, Reader.ofInput_eq_error_iff.mpr hf, hmessage, hexit⟩
  · intro i r bs hasks hfeeds hsettings hinput e he
    subst hsettings hinput
    exact Command.toldOf_invoke hasks hfeeds he

/-- A byte of the standard input that starts no character. -/
theorem failures_of_sources_malformed :
    let i : Invocation :=
      { arguments := []
        environment := []
        standardInput := [0x78, 0xFF]
        files := fun _ => .missing }
    let r : ScanRequest := ⟨none, none, false, false, false, false⟩
    let input : Input := .reader (.ok (.bytes i.standardInput))
    let settings := Command.settingsOf i r
    let e : SourceError :=
      .decoding (.malformed ⟨"utf-8".toList, .invalidStart, 1, 1, 0xFF⟩)
    Command.Asks i r ∧ Command.Feeds i r Command.standardInputName i.standardInput ∧
      input.Fails settings.encoding e ∧ e.isReported = true ∧
      Number.isWritable settings.firstLine = true ∧
      Reader.ofInput Command.standardInputName settings input =
        .error (.diagnostic (e.diagnostic ⟨Command.standardInputName, 1⟩)) ∧
      (Command.invoke i).stdout = [] ∧ (Command.invoke i).exit.code = 1 := by
  intro i r input settings e
  have hasks : Command.Asks i r :=
    ⟨by decide, {}, Arguments.parse_eq_ok_iff.mpr ⟨[], .nil, rfl⟩, rfl⟩
  have hfeeds : Command.Feeds i r Command.standardInputName i.standardInput :=
    .standardInput rfl
  have hfails : input.Fails settings.encoding e := .decoding (.reader _) rfl (by decide +kernel)
  have hline : Number.isWritable settings.firstLine = true := by decide +kernel
  obtain ⟨-, -, -, hdiagnostic, -, -, -, hcommand⟩ :=
    failures_of_sources Command.standardInputName settings input
  have htold := hcommand i r i.standardInput hasks hfeeds rfl rfl e hfails
  exact ⟨hasks, hfeeds, hfails, rfl, hline, (hdiagnostic _).mpr ⟨hline, e, hfails, rfl, rfl⟩,
    htold.stdout_eq, (htold.reported rfl hline).1⟩

/-- An encoding that refuses everything, and a reader that complains about a value: both pass on as
they are. -/
theorem refused_sources_pass_on :
    let name := "undefined".toList
    let settings : Settings := { encoding := .named name }
    let location : Location := ⟨"<input>".toList, 1⟩
    let refused : Text :=
      "decoding with 'undefined' codec failed (UnicodeError: undefined encoding)".toList
    let closed : Text := "I/O operation on closed file.".toList
    let bytes : Input := .content (.bytes [0x61])
    let reader : Input := .reader (.error (.value closed))
    settings.encoding.decode [0x61] = .error (.refused name) ∧
      Reader.ofInput location.source settings bytes = .error (.refusedEncoding refused) ∧
      Reader.ofInput location.source settings bytes ≠ .error (Input.unreadable location refused) ∧
      Reader.ofInput location.source settings reader = .error (.readerValue closed) ∧
      Reader.ofInput location.source settings reader ≠
        .error (Input.unreadable location closed) := by
  decide +kernel

end LoxLexer
