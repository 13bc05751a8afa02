import Vitrine.Command.Archive

/-!
The command line. The first line of the input is an archive of the project's files, and the rest is
what the user answers to questions. The output of the command comes first, and the archive of the
files afterwards is the last line.
-/
namespace Vitrine

/-- The rest of the input. -/
partial def readRest (input : IO.FS.Stream) (sofar : String) : IO String := do
  let line ← input.getLine
  if line.isEmpty then return sofar
  readRest input (sofar ++ line)

/-- The variables of the environment that settings depend on. -/
def environment : IO Variables := do
  let names := [Variables.stateDirectoryName, Variables.commandName]
  let found ← names.mapM fun name => do return (name, (← IO.getEnv name).getD "")
  return found

end Vitrine

open Vitrine

def main (arguments : List String) : IO UInt32 := do
  let input ← IO.getStdin
  let archive ← input.getLine
  let answers ← readRest input ""
  let shell := Archive.shell (← environment) archive answers "1970-01-01T00:00:00+00:00"
  let (r, shell) := Command.perform arguments shell
  for e in shell.host.logs do IO.eprintln (e.level.name ++ " " ++ e.text)
  IO.eprint shell.console.err
  IO.print shell.console.out
  IO.println ((Archive.pack shell.host.store).write Json.compact)
  match r with
  | .ok code => return (code % 256).toNat.toUInt32
  | .error e =>
    IO.eprintln e.message
    return 1
