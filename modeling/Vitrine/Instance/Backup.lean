import Vitrine.Host

/-!
Backups: the content of an entry file, kept in memory and as a copy, until it is put back.
-/
namespace Vitrine

structure Backup where
  entry : Path
  content : List UInt8
  /-- The kind and the permissions of the entry file. -/
  mode : Nat
  workingDirectory : Path
  /-- Where the copy is kept. -/
  copy : Path
  createdAt : String

namespace Backup

/-- The name of the copy with a number. -/
def copyName (number : Nat) : String := String.ofList (Text.hexDigits 32 number) ++ ".bak"

/-- Keeps the content of an entry file, with a copy in a directory. -/
def capture (directory entry workingDirectory : Path) : Work Backup := do
  Work.makeDirectories directory
  let copy := directory.child (copyName (← Work.issue))
  match ← Work.attempt (do
    let content ← Work.readBytes entry
    let mode ← Work.fullMode entry
    Work.copy entry copy
    return (content, mode)) with
  | .ok (content, mode) => return ⟨entry, content, mode, workingDirectory, copy, (← get).now⟩
  | .error e =>
    Work.discard copy
    throw (.backup (.capture entry e))

/-- Puts the entry file back as `direct` does it, or else from its copy. -/
def restoreBy (b : Backup) (direct : Work Unit) : Work Unit := do
  match ← Work.attempt (do
    direct
    Work.setMode b.entry b.mode) with
  | .ok () => return
  | .error e =>
    Work.warn ("Restoring " ++ b.entry.text ++ " failed (" ++ e.shown ++
      "), copying backup file instead")
    match ← Work.attempt (do
      Work.copy b.copy b.entry
      Work.setMode b.entry b.mode) with
    | .ok () => return
    | .error _ => throw (.backup (.restore b.entry b.copy))

/-- Puts the entry file back. -/
def restore (b : Backup) : Work Unit := b.restoreBy (Work.writeBytes b.entry b.content)

/-- Removes the copy. -/
def discard (b : Backup) : Work Unit := do
  match ← Work.attempt (Work.discard b.copy) with
  | .ok () => return
  | .error e => Work.warn ("Could not remove backup " ++ b.copy.text ++ ": " ++ e.shown)

end Backup
end Vitrine
