import LoxLexer.Command.Arguments
import LoxLexer.Command.Platform
import LoxLexer.Scan

/-!
# The command

`Command.invoke` is the command as a function: from arguments, environment,
standard input and a view of the files to the exit status and the two texts that
are written.  Tokens go to the standard output one by one as they are kept, so
those before an error are always there; one that the standard output refuses ends
the command.  Log and reports go to standard error.

A shell that wants a command line completed says so by a variable, and the
command does nothing else then.  `Command.run` is what it does otherwise.
-/

namespace LoxLexer

structure Invocation where
  arguments : List Text
  environment : Environment
  standardInput : Bytes
  files : Files
  platform : Platform := {}

namespace Command

/-! ## Texts -/

def usageLine : Text := "Usage: pylox [OPTIONS] [SCRIPT]\n".toList

def helpHint : Text := "Try 'pylox --help' for help.\n".toList

def versionText : Text := "pylox, version 1.0.0\n".toList

def helpLines : List String :=
  ["",
   "  Scan Lox source code and print its tokens.",
   "",
   "  SCRIPT is the Lox source file to scan. Without it, standard input is read to",
   "  the end and scanned.",
   "",
   "  Examples:",
   "      pylox hello.lox               # One token per line",
   "      pylox --no-comments a.lox     # Skip comments",
   "      cat a.lox | pylox -q          # Summary only",
   "",
   "Options:",
   "  --no-comments           Do not print COMMENT tokens",
   "  --first-line INTEGER    Number of the first source line (default: 1, or",
   "                          $PYLOX_FIRST_LINE)",
   "  --no-logical-operators  Reject '&&' and '||' (use 'and' / 'or')",
   "  -q, --quiet             Print a summary instead of the token stream",
   "  -v, --verbose           Verbose output",
   "  --version               Show the version and exit.",
   "  --help                  Show this message and exit."]

def helpText : Text := usageLine ++ helpLines.flatMap fun l => l.toList ++ ['\n']

def standardInputName : Text := "<stdin>".toList

def completionVariable : Text := "_PYLOX_COMPLETE".toList

/-! ## Algorithm -/

def levelLabel : Level → Text
  | .debug => "DEBUG".toList
  | .info => "INFO".toList

def logText (log : List LogEntry) : Text :=
  log.flatMap fun e => levelLabel e.level ++ ": ".toList ++ e.message ++ ['\n']

/-- A message on a line of its own. -/
def printed (t : Text) : Text := Terminal.plain (t ++ ['\n'])

def usageOutcome (suggestion : Text → Text) (e : UsageError) : Outcome where
  exit := .invalidArguments
  stdout := []
  stderr :=
    (if e.showsUsage then usageLine ++ helpHint ++ ['\n'] else []) ++
      printed ("Error: ".toList ++ e.message suggestion)

/-- The settings of the environment, overridden by the options given. -/
def settingsOf (i : Invocation) (r : ScanRequest) : Settings :=
  let s := Settings.ofEnvironment i.platform.codecs i.environment
  { s with
    firstLine := r.firstLine.getD s.firstLine
    logical := s.logical && !r.noLogical }

def inputEntry : LogEntry := ⟨.debug, "Reading source from standard input".toList⟩

def scanOf (i : Invocation) (r : ScanRequest) : Scan :=
  let settings := settingsOf i r
  match r.script with
  | none =>
    (Scan.run (!r.noComments) standardInputName settings
      (.reader (.ok (.bytes i.standardInput)))).cons inputEntry
  | some path => Scan.file (!r.noComments) i.files path settings

/-- The scan that is asked for, with its tokens going out unless it is quiet. -/
def scanned (i : Invocation) (r : ScanRequest) : Scan :=
  if r.quiet then scanOf i r else (scanOf i r).into fun t => i.platform.refusal? (printed t.render)

/-- The line that goes out at the end of a scan, if one is asked for. -/
def closing (p : Platform) (r : ScanRequest) (s : Summary) : Except Failure Text :=
  if r.quiet || r.verbose then p.write (printed s.render) else .ok []

/-- What is written of a scan. -/
def scanOutcome (p : Platform) (r : ScanRequest) (scan : Scan) : Outcome :=
  let tokens := if r.quiet then [] else scan.delivered.flatMap (printed ·.render)
  let log := if r.verbose then logText scan.log else []
  match scan.outcome.bind (closing p r) with
  | .ok line => ⟨.success, tokens ++ line, log⟩
  | .error failure =>
    ⟨.ofFailure failure, tokens, log ++ failure.report (p.trace failure) r.verbose⟩

/-- The command behind the completion of command lines.  Help and version are ASCII, which every
output takes. -/
def run (i : Invocation) : Outcome :=
  match Arguments.parse i.arguments with
  | .error e => usageOutcome i.platform.suggestion e
  | .ok arguments =>
    match arguments.request i.files with
    | .error e => usageOutcome i.platform.suggestion e
    | .ok .help => ⟨.success, helpText, []⟩
    | .ok .version => ⟨.success, versionText, []⟩
    | .ok (.scan r) => scanOutcome i.platform r (scanned i r)

def invoke (i : Invocation) : Outcome :=
  match Settings.lookup i.environment completionVariable with
  | some instruction => i.platform.completion instruction
  | none => run i

end Command

end LoxLexer
