import LoxLexer.Number.Integer
import LoxLexer.Path
import LoxLexer.Text.Quoted

/-!
# Arguments of the command

The command takes switches, one option with a value and one script.  Options may
stand before and behind the script, short switches may be bundled, and `--` ends
the options.

Reading arguments has two stages.  `Arguments.parse` sorts them out and fails at
the first option that is not one.  `Arguments.request` then looks for a switch
that asks for information, and only then at the values.
-/

namespace LoxLexer

inductive Switch
  | noComments
  | noLogical
  | quiet
  | verbose
  | version
  | help
  deriving DecidableEq, Repr

/-- What an option is: a switch, or the number of the first line. -/
inductive OptionKind
  | switch (s : Switch)
  | firstLine
  deriving DecidableEq, Repr

inductive UsageError
  | noSuchOption (name : Text)
  | noSuchSwitch (c : Char)
  | missingValue (option : Text)
  | unexpectedValue (option : Text)
  | notAnInteger (value : Text)
  | missingScript (path : Text)
  | directoryScript (path : Text)
  | extraArguments (arguments : List Text)
  deriving DecidableEq, Repr

/-- Arguments sorted out, each sort in the order given. -/
structure Arguments where
  switches : List Switch := []
  /-- The value of the last such option. -/
  firstLine : Option Text := none
  positional : List Text := []
  deriving DecidableEq, Repr

/-- A scan as it was asked for. -/
structure ScanRequest where
  script : Option Text
  firstLine : Option Int
  noComments : Bool
  noLogical : Bool
  quiet : Bool
  verbose : Bool
  deriving DecidableEq, Repr

inductive Request
  | help
  | version
  | scan (r : ScanRequest)
  deriving DecidableEq, Repr

namespace Arguments

/-! ## Options -/

def firstLineOption : Text := "--first-line".toList

def longOptions : List (Text × OptionKind) :=
  [("--no-comments".toList, .switch .noComments), (firstLineOption, .firstLine),
   ("--no-logical-operators".toList, .switch .noLogical), ("--quiet".toList, .switch .quiet),
   ("--verbose".toList, .switch .verbose), ("--version".toList, .switch .version),
   ("--help".toList, .switch .help)]

def shortSwitches : List (Char × Switch) := [('q', .quiet), ('v', .verbose)]

/-! ## Algorithm -/

/-- An option given by one argument. -/
inductive Given
  | switches (s : List Switch)
  | firstLine (value : Option Text)
  deriving DecidableEq, Repr

/-- The name of a long option, and the value behind an equals sign. -/
def splitValue (arg : Text) : Text × Option Text :=
  match arg.dropWhile (· != '=') with
  | [] => (arg, none)
  | _ :: value => (arg.takeWhile (· != '='), some value)

/-- A bundle of short switches. -/
def bundle : Text → Except UsageError (List Switch)
  | [] => .ok []
  | c :: t =>
    match shortSwitches.lookup c with
    | some s => (bundle t).map (s :: ·)
    | none => .error (.noSuchSwitch c)

/-- An argument that starts with a dash; every name is tried as a long one first. -/
def readOption (arg : Text) : Except UsageError Given :=
  let (name, value) := splitValue arg
  match longOptions.lookup name with
  | some .firstLine => .ok (.firstLine value)
  | some (.switch s) =>
    if value.isSome then .error (.unexpectedValue name) else .ok (.switches [s])
  | none =>
    if "--".toList.isPrefixOf arg then .error (.noSuchOption name)
    else (bundle (arg.drop 1)).map .switches

def isOption (arg : Text) : Bool := arg.head? = some '-' && arg ≠ ['-']

/-- What `parse` gives behind the arguments sorted out in `a`. -/
def parseFrom (a : Arguments) : List Text → Except UsageError Arguments
  | [] => .ok a
  | arg :: rest =>
    if arg = "--".toList then .ok { a with positional := a.positional ++ rest }
    else if isOption arg then
      match readOption arg with
      | .error e => .error e
      | .ok (.switches s) => parseFrom { a with switches := a.switches ++ s } rest
      | .ok (.firstLine (some v)) => parseFrom { a with firstLine := some v } rest
      | .ok (.firstLine none) =>
        match rest with
        | [] => .error (.missingValue firstLineOption)
        | v :: rest => parseFrom { a with firstLine := some v } rest
    else parseFrom { a with positional := a.positional ++ [arg] } rest

def parse (args : List Text) : Except UsageError Arguments := parseFrom {} args

/-- The request that a switch makes, and that no other argument can spoil. -/
def informationOf : Switch → Option Request
  | .help => some .help
  | .version => some .version
  | _ => none

def firstLineValue : Option Text → Except UsageError (Option Int)
  | none => .ok none
  | some v =>
    match Number.readInteger v with
    | .ok n => .ok (some n)
    | .error _ => .error (.notAnInteger v)

/-- The script has to be a file under the name as given; it is opened by its normal path. -/
def scriptValue (files : Files) : Option Text → Except UsageError (Option Text)
  | none => .ok none
  | some path =>
    match files path with
    | .file _ => .ok (some (Path.normal path))
    | .directory => .error (.directoryScript path)
    | _ => .error (.missingScript path)

def request (files : Files) (a : Arguments) : Except UsageError Request :=
  match a.switches.findSome? informationOf with
  | some r => .ok r
  | none => do
    let firstLine ← firstLineValue a.firstLine
    let script ← scriptValue files a.positional.head?
    if a.positional.tail ≠ [] then throw (.extraArguments a.positional.tail)
    return .scan
      { script, firstLine
        noComments := a.switches.contains .noComments
        noLogical := a.switches.contains .noLogical
        quiet := a.switches.contains .quiet
        verbose := a.switches.contains .verbose }

end Arguments

namespace UsageError

/-- The wording of an error; `suggestion` tells of the options that are like a long one. -/
def message (suggestion : Text → Text) : UsageError → Text
  | noSuchOption name => "No such option: ".toList ++ name ++ suggestion name
  | noSuchSwitch c => "No such option: ".toList ++ ['-', c]
  | missingValue option => "Option ".toList ++ Text.quoted option ++ " requires an argument.".toList
  | unexpectedValue option =>
    "Option ".toList ++ Text.quoted option ++ " does not take a value.".toList
  | notAnInteger value =>
    "Invalid value for '--first-line': ".toList ++ Text.quoted value ++
      " is not a valid integer.".toList
  | missingScript path =>
    "Invalid value for '[SCRIPT]': File ".toList ++ Text.quoted path ++ " does not exist.".toList
  | directoryScript path =>
    "Invalid value for '[SCRIPT]': File ".toList ++ Text.quoted path ++ " is a directory.".toList
  | extraArguments [arg] => "Got unexpected extra argument (".toList ++ arg ++ ")".toList
  | extraArguments args =>
    "Got unexpected extra arguments (".toList ++ [' '].intercalate args ++ ")".toList

/-- Whether the message comes below a reminder of the usage. -/
def showsUsage : UsageError → Bool
  | missingValue _ => false
  | unexpectedValue _ => false
  | _ => true

end UsageError

end LoxLexer
