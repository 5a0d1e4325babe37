import LoxLexer.Command.Run

/-!
# The program

The outer layer of the command: it reads arguments, environment, files and
standard input, and writes what `Command.invoke` answers.
-/

namespace LoxLexer.Program

/-- What stands at a path. -/
def lookup (path : Text) : IO Lookup := do
  try
    let content ← IO.FS.readBinFile (String.ofList path)
    return .file content.toList
  catch
    | .inappropriateType none _ _ => return .directory
    | _ => return .missing

/-- A view of the one file that the arguments name, as given and in normal form. -/
def viewFiles (arguments : List Text) : IO Files := do
  match Arguments.parse arguments with
  | .error _ => return fun _ => .missing
  | .ok a =>
    match a.positional.head? with
    | none => return fun _ => .missing
    | some path =>
      let asGiven ← lookup path
      let normal ← lookup (Path.normal path)
      return fun p =>
        if p = path then asGiven else if p = Path.normal path then normal else .missing

partial def readAll (stream : IO.FS.Stream) (acc : ByteArray) : IO ByteArray := do
  let chunk ← stream.read 65536
  if chunk.isEmpty then return acc
  readAll stream (acc ++ chunk)

/-- The standard input, if the arguments ask for it. -/
def standardInput (arguments : List Text) (files : Files) : IO Bytes := do
  match Arguments.parse arguments with
  | .error _ => return []
  | .ok a =>
    match a.request files with
    | .ok (.scan ⟨none, _, _, _, _, _⟩) => return (← readAll (← IO.getStdin) .empty).toList
    | _ => return []

def environment : IO Environment := do
  let names := [Settings.firstLineVariable, Settings.logicalVariable, Settings.encodingVariable,
    Command.completionVariable]
  names.filterMapM fun name => do
    return (← IO.getEnv (String.ofList name)).map fun value => (name, value.toList)

end LoxLexer.Program

open LoxLexer in
def main (args : List String) : IO UInt32 := do
  let arguments := args.map (·.toList)
  let files ← Program.viewFiles arguments
  let environment ← Program.environment
  let standardInput ← Program.standardInput arguments files
  let outcome := Command.invoke { arguments, environment, standardInput, files }
  (← IO.getStdout).putStr (String.ofList outcome.stdout)
  (← IO.getStderr).putStr (String.ofList outcome.stderr)
  return outcome.exit.code.toUInt32
