import Vitrine.Instance.Recovery
import Vitrine.Preview.Resolution
import Vitrine.Session.DevServer
import Vitrine.Watcher

/-!
A session and all that it works with: the host, its dev server, and what else goes on while it runs.
-/
namespace Vitrine

/-- How far a session has come. -/
inductive Phase where
  | idle | installing | active | restoring
  /-- Another session owned the entry file. -/
  | aborted
  deriving DecidableEq, Repr

def Phase.name : Phase → String
  | .idle => "idle"
  | .installing => "installing"
  | .active => "active"
  | .restoring => "restoring"
  | .aborted => "aborted"

structure Session where
  /-- The real path of the preview file. -/
  configFile : Path
  settings : Settings
  entryDirectory : Option Path
  phase : Phase
  /-- The entry file and its language. -/
  entry : Option (Path × Preview.Language)
  backup : Option Backup
  marker : Option Marker
  /-- Whether the dev server was started. -/
  started : Bool
  watcher : Option Watcher
  /-- Whether the entry file may hold generated code. -/
  generated : Bool
  /-- The first signal that arrived. -/
  signal : Option Nat

namespace Session

def instances (s : Session) : Instances := ⟨s.settings.temporary⟩

/-- A session for a preview file, before it runs. -/
def create (configFile : Path) (settings : Settings) (entryDirectory : Option Path) :
    Work Session := do
  return {
    configFile := ← Work.realPath configFile
    settings, entryDirectory
    phase := .idle, entry := none, backup := none, marker := none, started := false
    watcher := none, generated := false, signal := none }

end Session

/-- A session among its surroundings, of which `outside` is all that it does not know. -/
structure Scene (σ : Type) where
  host : Host
  session : Session
  server : DevServer
  outside : σ

/-- How a dev server behaves, and what happens around the session meanwhile. -/
structure Script (σ : Type) where
  exitCode : Int
  timeouts : Nat
  ignoresTermination : Bool
  /-- The error that it cannot be started for. -/
  startError : Option Errno
  /-- A signal that arrives while it is started. -/
  signalAtStart : Option Nat
  /-- Whether the first wait ends in a fault. -/
  waitFails : Bool
  duringStart : Scene σ → Scene σ
  /-- What happens during a wait, the waits being counted from zero. -/
  duringWait : Nat → Scene σ → Scene σ
  onTermination : Scene σ → Scene σ
  /-- What happens while the entry file is about to be put back. -/
  duringRestoration : Scene σ → Scene σ

/-- Something that a session does. What has been done stays done when it fails. -/
abbrev Act (σ : Type) := ExceptT Error (StateM (Scene σ))

namespace Act

variable {σ α : Type}

/-- Work on the host. -/
def work (w : Work α) : Act σ α := do
  let scene ← get
  let (r, host) := w.run.run scene.host
  set { scene with host }
  match r with
  | .ok a => return a
  | .error e => throw e

def session : Act σ Session := do return (← get).session

def server : Act σ DevServer := do return (← get).server

def setSession (f : Session → Session) : Act σ Unit :=
  modify fun scene => { scene with session := f scene.session }

def setServer (f : DevServer → DevServer) : Act σ Unit :=
  modify fun scene => { scene with server := f scene.server }

def enter (phase : Phase) : Act σ Unit := setSession fun s => { s with phase }

/-- The outcome of something, which goes on whether it failed or not. -/
def outcome (a : Act σ α) : Act σ (Result α) :=
  tryCatch (do return .ok (← a)) fun e => return .error e

end Act
end Vitrine
