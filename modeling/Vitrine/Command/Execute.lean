import Vitrine.Command.Shell

/-!
Carrying out commands.
-/
namespace Vitrine

/-- The name and the version of the program. -/
def programName : String := "react-preview"

def version : String := "0.3.0"

namespace Command

open Dialogue

variable {σ : Type}

/-- How the program is used. -/
def usage : String :=
  "Usage: " ++ programName ++ " [--version] [--verbose] [--state-dir PATH] COMMAND [ARGUMENTS]\n" ++
    "Commands: " ++ joinWith ", " names ++ "\n"

/-- The preview file that a target leads to; the user is asked whether a missing one is made. -/
def locateAsking (target : String) (s : Settings) : Dialogue σ Path := do
  match ← work (seek target ⟨s.storage⟩ s.workingDirectory) with
  | .found file => return file
  | .missing offer => work (offer.settle (← confirm offer.question))

/-- The preview file that a target leads to; a missing one is not made. -/
def locateSilently (target : String) (s : Settings) : Dialogue σ Path := do
  let (_, located) ← work (locate target ⟨s.storage⟩ s.workingDirectory none)
  work (Work.look fun _ => located)

def runSession (s : Settings) (target : String) (entryDirectory : Option Path) :
    Dialogue σ Session := do
  let file ← locateAsking target s
  if !(← work s.isInitialized) then
    printWarning ("Creating state directory " ++ s.stateDirectory.text)
    work s.ensureState
  printHeader programName ("Previewing " ++ file.text)
  Dialogue.session (← work (Session.create file s entryDirectory))

/-- The rows of the table of registrations; files that are gone are marked. -/
def registrationRows : List Registration → Work (List (String × String))
  | [] => return []
  | r :: rs => do
    let mark := if ← Work.isFile r.file then "" else " (missing)"
    return (r.id, r.file.text ++ mark) :: (← registrationRows rs)

/-- Carries a command out under settings. -/
def execute (s : Settings) : Command → Dialogue σ Unit
  | .run target entryDirectory devCommand => do
    let s ← match devCommand.filter (· ≠ "") with
      | none => pure s
      | some words =>
        work (Settings.resolve (← get).environment s.stateDirectory s.workingDirectory words)
    let session ← reporting (runSession s target entryDirectory)
    let entry := (session.entry.map fun e => e.1.text).getD ""
    printSuccess ((if session.backup.isSome then "Restored " else "Removed generated ") ++ entry)
  | .render target entryDirectory => do
    let (_, code) ← reporting do
      let file ← locateSilently target s
      work (Preview.render file s entryDirectory)
    write code
  | .init directory => do
    let s ← match directory with
      | none => pure s
      | some name =>
        work (Settings.resolve (← get).environment (Settings.pathOf? name) s.workingDirectory none)
    let target ← reporting (work s.initializeState)
    printSuccess ("Initialized preview environment at " ++ target.text)
  | .register file => do
    let r ← reporting do
      work s.ensureState
      work (Registry.register ⟨s.storage⟩ (s.workingDirectory.join file))
    printSuccess ("Registered " ++ r.id ++ " -> " ++ r.file.text)
  | .unregister id => do
    reporting (work (Registry.unregister ⟨s.storage⟩ id))
    printSuccess ("Unregistered " ++ id)
  | .list => do
    let rs ← work (Registry.entries ⟨s.storage⟩)
    if rs.isEmpty then write "No registered previews.\n"
    else
      let rows ← work (registrationRows rs)
      let drawn := Terminal.table ("Id", "Preview file") rows
      write (← work (Work.look fun _ => Result.ofFault drawn))
  | .recover => do
    let ms ← reporting (work (Instances.recover ⟨s.temporary⟩))
    if ms.isEmpty then printNote "No stale sessions found"
    else ms.forM fun m => printSuccess ("Restored " ++ m.entry.text)

/-- The paths among the arguments of a command. -/
def paths : Command → List Path
  | .run _ directory _ | .render _ directory => directory.toList
  | .register file => [file]
  | _ => []

/-- Arguments that are no paths of any file are a fault. -/
def requireSound (ps : List Path) : Dialogue σ Unit :=
  if ps.all Path.isSound then return else throw (.failed (.fault .value))

/-- Carries out what was asked for. -/
def settle : Outcome (Dialogue σ Unit) → Dialogue σ Unit
  | .misused => do
    writeError usage
    throw (.exit misuse)
  | .help => write usage
  | .asked d => d

def Outcome.map {α β : Type} (f : α → β) : Outcome α → Outcome β
  | .misused => .misused
  | .help => .help
  | .asked a => .asked (f a)

/-- Carries out a command line. -/
def executeLine (arguments : List String) : Dialogue σ Unit :=
  settle ((Line.read arguments).map fun
    | .version => write (programName ++ " " ++ version ++ "\n")
    | .command stateDirectory c => do
      requireSound stateDirectory.toList
      let s ← work (Settings.resolve (← get).environment stateDirectory none none)
      settle (c.map fun c => do
        requireSound c.paths
        execute s c))

/-- Carries out a command line to its end: the exit code, or the error that nothing was done
about. -/
def perform (arguments : List String) (shell : Shell σ) : Result Int × Shell σ :=
  match (executeLine arguments).run.run shell with
  | (.ok (), shell) => (.ok 0, shell)
  | (.error (.exit code), shell) => (.ok code, shell)
  | (.error (.failed e), shell) => (.error e, shell)

end Command
end Vitrine
