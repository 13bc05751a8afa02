import Vitrine.Instance.Marker
import Vitrine.Preview.EntryCode

/-!
Recovery: entry files are put back that sessions left behind whose process is gone.
-/
namespace Vitrine

/-- The first line of a text, without blanks around it. -/
def firstLine (text : String) : String :=
  Text.strip (String.ofList (text.toList.takeWhile (· ≠ '\n')))

/-- Whether a file holds a generated entry file. -/
def isGenerated (p : Path) : Work Bool :=
  tryCatch (do return firstLine (← Work.readText p) = Preview.generatedMarker) fun
    | .system _ | .fault .decoding => return false
    | e => throw e

/-- The largest number of a process. -/
def processIdLimit : Int := 2147483647

/-- Whether a process is running. -/
def isRunning (processId : Int) : Work Bool := do
  if processId ≤ 0 then return false
  if processIdLimit < processId then throw (.fault .overflow)
  return (← get).running.contains processId

namespace Marker

/-- Gives a file the mode that a marker remembers, if any. -/
def restoreMode (target : Path) : Json → Work Unit
  | .null => return
  | .bool b => Work.setMode target (if b then 1 else 0)
  | .int n =>
    if n < -processIdLimit - 1 || processIdLimit < n then throw (.fault .overflow)
    else Work.setMode target n
  | _ => throw (.fault .type)

/-- Puts the entry file back, from its copy if there was one, or else by removing what was generated
in its place. -/
def bringBack (m : Marker) : Work Unit := do
  match m.backup with
  | some copy =>
    if ← Work.isFile copy then
      match ← Work.attempt (do
        Work.copy copy m.entry
        restoreMode m.entry m.fileMode) with
      | .ok () => Work.discard copy
      | .error e => throw (.backup (.recovery m.entry e))
    else Work.warn ("Backup " ++ copy.text ++ " for " ++ m.entry.text ++ " is missing")
  | none =>
    if ← Work.exists_ m.entry then
      if ← isGenerated m.entry then Work.remove m.entry

/-- Whether the session of a marker is another one that is still running. -/
def isLive (m : Marker) : Work Bool := do
  return (← isRunning m.processId) && m.processId ≠ (← get).processId

end Marker

namespace Instances

/-- Recovers the sessions of some markers that are not running; answers their markers. -/
def recoverAmong : List Marker → Work (List Marker)
  | [] => return []
  | m :: ms => do
    if ← m.isLive then recoverAmong ms
    else
      m.bringBack
      removeMarker m
      return m :: (← recoverAmong ms)

/-- Recovers all sessions that are not running. -/
def recover (i : Instances) : Work (List Marker) := do recoverAmong (← i.markers)

end Instances
end Vitrine
