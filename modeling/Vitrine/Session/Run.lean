import Vitrine.Session.Scene

/-!
Running a session. The entry file is replaced by generated code, the dev server runs until it ends
or a signal ends it, and then the entry file is put back. While the dev server runs, changes of the
preview file are followed.
-/
namespace Vitrine

/-- Whether an error is one that the program reports in words of its own. -/
def Error.isReported : Error → Bool
  | .system _ | .fault _ | .invalidDescriptor _ => false
  | _ => true

namespace Session

variable {σ : Type}

/-! ## The dev server -/

/-- Asks the dev server to end. -/
def terminate (script : Script σ) : Act σ Unit := do
  let first := !(← Act.server).terminated
  Act.setServer fun s => { s.request .terminate with terminated := true }
  if first then modify script.onTermination

def kill : Act σ Unit := Act.setServer fun s => { s.request .kill with killed := true }

/-- Waits for the dev server to end. -/
def wait (script : Script σ) (limit : Option Milliseconds) : Act σ Waited := do
  Act.setServer fun s => s.request (.wait limit)
  let server ← Act.server
  match server.ended with
  | some code => return .ended code
  | none =>
    Act.setServer fun s => { s with waits := s.waits + 1 }
    modify (script.duringWait server.waits)
    if script.waitFails && server.waits = 0 then throw (.fault .runtime)
    let (waited, server) :=
      (← Act.server).settleWait script.ignoresTermination script.exitCode limit
    Act.setServer fun _ => server
    return waited

/-! ## Signals -/

/-- A signal arrives. The dev server is asked to end; before it was started, the session stops where
it is, and once the entry file is being put back the signal is only remembered. -/
def receive (script : Script σ) (signal : Nat) : Act σ Unit := do
  Act.setSession fun s => { s with signal := s.signal.or (some signal) }
  let s ← Act.session
  if s.phase = .restoring then return
  if s.started then
    if (← Act.server).ended.isNone then terminate script
  else throw (.interrupted signal)

/-! ## Generated code -/

/-- Writes the code for the preview file as it is now. -/
def writeGenerated (entry : Path) (language : Preview.Language) : Act σ Unit := do
  let s ← Act.session
  let code ← Act.work (Preview.generate s.configFile entry language)
  Act.setSession fun s => { s with generated := true }
  match ← Act.work (Work.attempt (Work.writeText entry code)) with
  | .ok () => return
  | .error e => throw (.backup (.write entry e))

/-- Follows a change of the preview file. A version that cannot be used changes nothing. -/
def followChange (file : Path) : Act σ Unit := do
  let s ← Act.session
  match s.phase, s.entry with
  | .active, some (entry, language) =>
    match ← Act.outcome (writeGenerated entry language) with
    | .ok () => return
    | .error e =>
      if e.isReported then
        Act.work (Work.warn ("Keeping previous preview, " ++ file.text ++ " is invalid: " ++
          e.message))
      else throw e
  | _, _ => return

/-- Follows a change; all errors end in a warning. -/
def followChangeOrWarn (file : Path) : Act σ Unit := do
  match ← Act.outcome (followChange file) with
  | .ok () => return
  | .error e => Act.work (Work.warn (Watcher.troubleText file e.logged))

def isWatcherStopped : Act σ Bool := do
  return (← Act.session).watcher.all (·.stopped)

/-- One poll of the session's watcher: the files that have changed. -/
def poll : Act σ (List Path) := do
  match (← Act.session).watcher with
  | none => return []
  | some w =>
    let (changed, w) := w.poll (← get).host
    Act.setSession fun s => { s with watcher := some w }
    let _ ← Watcher.deliver isWatcherStopped followChangeOrWarn changed
    return changed

/-! ## Installing -/

/-- Starts the dev server. -/
def start (script : Script σ) : Act σ Unit := do
  let settings := (← Act.session).settings
  let command ← Act.work settings.command
  Act.setServer fun s => { s with command := some (command, settings.workingDirectory) }
  modify script.duringStart
  match script.signalAtStart with
  | some signal => receive script signal
  | none => pure ()
  match script.startError with
  | some e => throw (.spawn command e)
  | none => Act.setSession fun s => { s with started := true }

/-- Puts the generated code in the place of the entry file and starts the dev server. -/
def install (script : Script σ) (entry : Path) (language : Preview.Language) : Act σ Unit := do
  let s ← Act.session
  let workingDirectory := s.settings.workingDirectory
  if ← Act.work (Work.exists_ entry) then
    let backup ← Act.work (Backup.capture s.instances.directory entry workingDirectory)
    Act.setSession fun s => { s with backup := some backup }
  let backup := (← Act.session).backup
  let marker ← Act.work (s.instances.writeMarker entry workingDirectory language backup)
  Act.setSession fun s => { s with marker := some marker }
  writeGenerated entry language
  let host := (← get).host
  Act.setSession fun s => { s with watcher := some (Watcher.start host [s.configFile]) }
  start script

/-! ## Supervising -/

/-- How long one wait lasts, and how long a dev server may take to end. -/
def waitSpan : Milliseconds := 500

def grace : Milliseconds := 5000

/-- When a dev server is killed that was asked to end. -/
inductive Deadline where
  /-- No wait has ended in vain since a signal arrived. -/
  | unset
  | due (time : Milliseconds)
  | passed
  deriving DecidableEq, Repr

/-- Waits for the dev server to end, and kills it if it takes too long after a signal. The count
bounds the waits. -/
def supervise (script : Script σ) : Nat → Deadline → Act σ Int
  | 0, _ => throw (.fault .runtime)
  | waits + 1, deadline => do
    match ← wait script (some waitSpan) with
    | .ended code => return code
    | .timedOut =>
      if (← Act.session).signal.isNone then supervise script waits deadline
      else
        let clock := (← Act.server).clock
        match deadline with
        | .unset => supervise script waits (.due (clock + grace))
        | .due time =>
          if time ≤ clock then
            Act.work (Work.warn "Dev server ignored termination, killing it")
            kill
            supervise script waits .passed
          else supervise script waits (.due time)
        | .passed => supervise script waits .passed

/-- As many waits as a dev server can last: those that it outlasts, and those until it is killed. -/
def waitBound (script : Script σ) : Nat := script.timeouts + 2 * (grace / waitSpan)

/-! ## Restoring -/

/-- Ends the dev server if it is still running. -/
def endServer (script : Script σ) : Act σ Unit := do
  if (← Act.session).started && (← Act.server).ended.isNone then
    terminate script
    match ← wait script (some grace) with
    | .ended _ => return
    | .timedOut =>
      kill
      let _ ← wait script none

/-- Puts the entry file back; answers whether that was done. -/
def restoreEntry (entry : Path) : Act σ Bool := do
  let s ← Act.session
  match s.backup with
  | some backup =>
    match ← Act.outcome (Act.work backup.restore) with
    | .ok () => return true
    | .error (.backup problem) =>
      Act.work (Work.warn (problem.message ++ "; restore it by hand from the backup kept at " ++
        backup.copy.text))
      return false
    | .error e => throw e
  | none =>
    if !s.generated then return true
    match ← Act.work (Work.attempt (Work.discard entry)) with
    | .ok () => return true
    | .error e =>
      Act.work (Work.warn ("Could not remove generated " ++ entry.text ++ ": " ++ e.shown))
      return false

/-- Ends what the session has begun, and puts the entry file back. -/
def tearDown (script : Script σ) (entry : Path) : Act σ Unit := do
  Act.setSession fun s => { s with phase := .restoring, watcher := none }
  modify script.duringRestoration
  endServer script
  let restored ← restoreEntry entry
  let s ← Act.session
  match s.backup with
  | some backup => if restored then Act.work backup.discard
  | none => pure ()
  match s.marker with
  | some marker => Act.work (Instances.removeMarker marker)
  | none => pure ()
  Act.enter .idle

/-! ## The whole -/

/-- What a session is up to between its beginning and its end: the exit code of the dev server. -/
def occupy (script : Script σ) (entry : Path) (language : Preview.Language) : Act σ Int := do
  install script entry language
  Act.enter .active
  supervise script (waitBound script) .unset

/-- Runs a session to its end. -/
def run (script : Script σ) : Act σ Unit := do
  let s ← Act.session
  let (entry, language) ← Act.work (Preview.resolveEntry s.configFile s.settings s.entryDirectory)
  Act.setSession fun s => { s with entry := some (entry, language) }
  if ← Act.work (s.instances.isOwned entry) then
    Act.enter .aborted
    throw (.conflict entry)
  Act.enter .installing
  let outcome ← Act.outcome (occupy script entry language)
  tearDown script entry
  match outcome with
  | .error e => throw e
  | .ok code =>
    match (← Act.session).signal with
    | some signal => throw (.interrupted signal)
    | none => if code ≠ 0 then throw (.exited code)

end Session
end Vitrine
