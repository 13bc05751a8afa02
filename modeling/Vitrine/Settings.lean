import Vitrine.Host
import Vitrine.Text.Words

/-!
Settings: where state is kept, where work begins, and how the dev server is started. What is said
outright wins over variables of the environment, and those win over the defaults. The state
directory holds one directory of registrations and one of markers and backups.
-/
namespace Vitrine

/-- The variables of the environment. -/
abbrev Variables := List (String × String)

namespace Variables

def stateDirectoryName : String := "REACT_PREVIEW_STATE_DIR"

def commandName : String := "REACT_PREVIEW_COMMAND"

/-- A variable without blanks around it; a missing one is empty. -/
def stripped (vs : Variables) (name : String) : String := Text.strip ((vs.lookup name).getD "")

end Variables

structure Settings where
  stateDirectory : Path
  workingDirectory : Path
  /-- The words of the dev server's command; if there are none, the command is detected. -/
  devCommand : List String

namespace Settings

def defaultStateDirectory : String := ".react-preview"

/-- Where registrations are kept. -/
def storage (s : Settings) : Path := s.stateDirectory.child "storage"

/-- Where markers and backups are kept. -/
def temporary (s : Settings) : Path := s.stateDirectory.child "temp"

/-- A text that is not empty, as a path. -/
def pathOf? (text : String) : Option Path := if text = "" then none else some (Path.ofText text)

/-- The settings that follow from what is said outright and from variables. -/
def resolve (vs : Variables) (stateDirectory workingDirectory : Option Path)
    (command : Option String) : Work Settings := do
  let workingDirectory ← Work.realPath (workingDirectory.getD (← get).workingDirectory)
  let named := stateDirectory.or (pathOf? (vs.stripped Variables.stateDirectoryName))
  let stateDirectory := named.getD (Path.ofText defaultStateDirectory)
  let command := (command.filter (· ≠ "")).getD (vs.stripped Variables.commandName)
  let words ← Work.look fun _ => Result.ofFault (Text.words command)
  return ⟨workingDirectory.join stateDirectory, workingDirectory, words⟩

/-- The command that starts the dev server; without one in the settings, the package manager that
the working directory shows runs its start script. -/
def command (s : Settings) : Work (List String) := do
  if !s.devCommand.isEmpty then return s.devCommand
  let locked ← Work.exists_ (s.workingDirectory.child "yarn.lock")
  return [if locked then "yarn" else "npm", "run", "start"]

def isInitialized (s : Settings) : Work Bool := do
  if !(← Work.isDirectory s.storage) then return false
  Work.isDirectory s.temporary

/-- Makes a new state directory. -/
def initializeState (s : Settings) : Work Path := do
  let target := s.stateDirectory
  if ← Work.exists_ target then throw (.state (.targetExists target))
  Work.makeNewDirectory s.storage
  Work.makeDirectory s.temporary
  return target

/-- Makes the directories of the state that are missing. -/
def ensureState (s : Settings) : Work Unit := do
  match ← Work.attempt (do
    Work.makeDirectories s.storage
    Work.makeDirectories s.temporary) with
  | .ok () => return
  | .error e => throw (.state (.creation s.stateDirectory e))

end Settings
end Vitrine
