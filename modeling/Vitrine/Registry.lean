import Vitrine.Preview.Resolution

/-!
The registry: preview files under short ids. A directory holds one file for each id, which is named
by the id and holds the path of the preview file.
-/
namespace Vitrine

structure Registration where
  id : String
  file : Path
  deriving DecidableEq, Repr

/-- A registry, by its directory. -/
structure Registry where
  storage : Path

namespace Registry

/-- Whether a text can be an id: it has to be the name of a file. -/
def isId (id : String) : Bool :=
  id ≠ "" && id ≠ "." && id ≠ ".." && !id.toList.contains '/' && !id.toList.contains '\\'

/-- The id of a preview file: the one that it gives, or its name without the suffix. -/
def idOf (file : Path) (entries : List (Key × Data)) : Result String :=
  match (Entries.get? "id" entries).getD .null with
  | .null => .ok file.stem
  | v => Result.ofFault v.plainText

def record (r : Registry) (id : String) : Path := r.storage.child id

/-- The preview file that a record names. -/
def readRecord (record : Path) : Work Path := do
  return Path.ofText (Text.strip (← Work.readText record))

/-- Registers a preview file; an earlier one under the same id is replaced. -/
def register (r : Registry) (file : Path) : Work Registration := do
  let file ← Work.realPath file
  let entries ← Preview.loadEntries file
  let id ← Work.look fun _ => idOf file entries
  if !isId id then throw (.config (.invalidId id) Preview.Location.nowhere)
  Work.makeDirectories r.storage
  let _ ← Work.exists_ (r.record id)
  Work.writeText (r.record id) file.text
  return ⟨id, file⟩

def unregister (r : Registry) (id : String) : Work Unit := do
  let known ← if isId id then Work.isFile (r.record id) else pure false
  if !known then throw (.notFound (.registration id))
  Work.remove (r.record id)

/-- The preview file under an id. -/
def lookup (r : Registry) (id : String) : Work (Option Path) := do
  if !isId id then return none
  if !(← Work.isFile (r.record id)) then return none
  return some (← readRecord (r.record id))

/-- The registrations of some ids, names that are no files being left out. -/
def entriesOf (r : Registry) : List String → Work (List Registration)
  | [] => return []
  | id :: ids => do
    if ← Work.isFile (r.record id) then
      let file ← readRecord (r.record id)
      return ⟨id, file⟩ :: (← entriesOf r ids)
    else entriesOf r ids

/-- All registrations, in the order of their ids. -/
def entries (r : Registry) : Work (List Registration) := do
  if !(← Work.isDirectory r.storage) then return []
  entriesOf r (← Work.names r.storage)

end Registry
end Vitrine
