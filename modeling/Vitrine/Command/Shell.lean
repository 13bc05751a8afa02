import Vitrine.Command.Line
import Vitrine.Locate
import Vitrine.Session.Run
import Vitrine.Terminal.Table

/-!
What commands work with: the host, the environment, a console to write on and to read from, and what
there is to know of the dev server that a session would run.
-/
namespace Vitrine

/-- What a user still has to say, and what was written. -/
structure Console where
  input : List Char
  out : String
  err : String

namespace Console

/-- A console before anything is written. -/
def ofInput (input : String) : Console := ⟨Text.unifyLines input.toList, "", ""⟩

/-- The next line of input. -/
def line? (c : Console) : Option (String × Console) :=
  if c.input.isEmpty then none
  else
    let line := c.input.takeWhile (· ≠ '\n')
    some (String.ofList line, { c with input := c.input.drop (line.length + 1) })

end Console

/-- What commands work with. -/
structure Shell (σ : Type) where
  host : Host
  environment : Variables
  console : Console
  script : Script σ
  /-- The session that was run, and its dev server. -/
  session : Option (Session × DevServer)
  outside : σ

/-- How a command ends before its end. -/
inductive Ending where
  | exit (code : Int)
  | failed (e : Error)

/-- What a command does. What has been done stays done when it ends early. -/
abbrev Dialogue (σ : Type) := ExceptT Ending (StateM (Shell σ))

namespace Dialogue

variable {σ α : Type}

/-- Work on the host. -/
def work (w : Work α) : Dialogue σ α := do
  let shell ← get
  let (r, host) := w.run.run shell.host
  set { shell with host }
  match r with
  | .ok a => return a
  | .error e => throw (.failed e)

def setConsole (f : Console → Console) : Dialogue σ Unit :=
  modify fun shell => { shell with console := f shell.console }

def write (text : String) : Dialogue σ Unit := setConsole fun c => { c with out := c.out ++ text }

def writeError (text : String) : Dialogue σ Unit :=
  setConsole fun c => { c with err := c.err ++ text }

/-- Writes a text in lines that fit on the terminal. -/
def print (text : String) : Dialogue σ Unit := write (Terminal.lay text)

def printSuccess (text : String) : Dialogue σ Unit := print ("✓ " ++ text)

def printWarning (text : String) : Dialogue σ Unit := print ("⚠ " ++ text)

def printNote (text : String) : Dialogue σ Unit := print ("ℹ " ++ text)

/-- Writes a title with a line below it, and empty lines around them. -/
def printHeader (title below : String) : Dialogue σ Unit := do
  write "\n"
  print title
  print below
  write "\n"

/-- The answers that mean yes. -/
def affirmatives : List String := ["y", "yes", "ok", "yep", "yeah"]

/-- The exit code of misuse. -/
def misuse : Int := 2

/-- Asks a question. Any answer that is not affirmative means no; where the input has ended, so does
the command. -/
def confirm (question : String) : Dialogue σ Bool := do
  write (question ++ " [y/N]: ")
  match (← get).console.line? with
  | none =>
    writeError "Aborted.\n"
    throw (.exit 1)
  | some (line, console) =>
    setConsole fun _ => console
    write (line ++ "\n")
    return affirmatives.contains (Text.lower (Text.strip line))

/-- Ends a command on an error with words of its own, which are written down. -/
def reporting (d : Dialogue σ α) : Dialogue σ α :=
  tryCatch d fun
    | .failed e => do
      if !e.isReported then throw (.failed e)
      writeError ("Error: " ++ e.message ++ "\n")
      throw (.exit ((e.exitCode?.filter (· ≠ 0)).getD 1))
    | ending => throw ending

/-- Runs a session to its end. -/
def session (session : Session) : Dialogue σ Session := do
  let shell ← get
  let server := DevServer.fresh shell.script.timeouts
  let (r, scene) := (Session.run shell.script).run.run ⟨shell.host, session, server, shell.outside⟩
  set { shell with
    host := scene.host, outside := scene.outside, session := some (scene.session, scene.server) }
  match r with
  | .ok () => return scene.session
  | .error e => throw (.failed e)

end Dialogue
end Vitrine
