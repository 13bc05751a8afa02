import Vitrine.Error
import Vitrine.Files.Walk
import Vitrine.Log
import Vitrine.Text.Bytes

/-!
The host that work is done on: its files, its log and its processes, and the operations on files.
Every operation checks first whether it can be done, and then makes at most one change.
-/
namespace Vitrine

structure Host where
  store : Store
  /-- The changes that were made, in their order. -/
  history : List Change
  /-- Where relative paths begin. -/
  workingDirectory : Path
  logs : List LogEntry
  /-- How many identifiers were given out. -/
  issued : Nat
  /-- The number of this process. -/
  processId : Int
  /-- The numbers of the other processes that are running. -/
  running : List Int
  /-- The present time, as it is written down. -/
  now : String

namespace Host

def change (h : Host) (c : Change) : Host :=
  { h with store := c.apply h.store, history := h.history ++ [c] }

def log (h : Host) (level : Level) (text : String) : Host :=
  { h with logs := h.logs ++ [⟨level, text⟩] }

/-- A path from the root on. -/
def absolute (h : Host) (p : Path) : Path := h.workingDirectory.join p

/-- Where a path leads. -/
def reach (h : Host) (follow : Bool) (p : Path) : Result Reached :=
  if p.isSound then
    match h.store.reach follow (h.absolute p) with
    | .ok r => .ok r
    | .error e => .error (.system e)
  else .error (.fault .value)

/-- The node that a path leads to. -/
def node (h : Host) (p : Path) : Result (Place × Node) :=
  match h.reach true p with
  | .ok (.there place n) => .ok (place, n)
  | .ok (.free _) => .error (.system .noEntry)
  | .error e => .error e

/-- The errors that say that nothing is there. -/
def isAbsence : Error → Bool
  | .system .noEntry | .system .notDirectory | .system .linkLoop | .fault .value => true
  | _ => false

/-- Whether a path leads to a node of some kind. -/
def isNode (h : Host) (kind : Node → Bool) (p : Path) : Result Bool :=
  match h.node p with
  | .ok (_, n) => .ok (kind n)
  | .error e => if isAbsence e then .ok false else .error e

/-- The path of the same file that leads over no links. -/
def realPath (h : Host) (p : Path) : Result Path :=
  if p.isSound then
    let real := h.store.realPath (h.absolute p)
    match h.store.reach true real with
    | .error .linkLoop => .error (.fault .runtime)
    | _ => .ok real
  else .error (.fault .value)

/-- The content of a file. -/
def bytes (h : Host) (p : Path) : Result (List UInt8) :=
  match h.node p with
  | .ok (_, .file content _ _) => .ok content
  | .ok _ => .error (.system .isDirectory)
  | .error e => .error e

/-- The text in a file. -/
def text (h : Host) (p : Path) : Result String :=
  match h.bytes p with
  | .ok content =>
    match Text.ofFile? content with
    | some s => .ok s
    | none => .error (.fault .decoding)
  | .error e => .error e

/-- The names in a directory, in their order. -/
def names (h : Host) (p : Path) : Result (List String) :=
  match h.node p with
  | .ok (place, .directory ..) => .ok (h.store.names place)
  | .ok _ => .error (.system .notDirectory)
  | .error e => .error e

/-! ## The changes that operations come to -/

/-- The change that gives a file a content. -/
def writing (h : Host) (p : Path) (content : List UInt8) : Result Change :=
  match h.reach true p with
  | .ok (.free place) => .ok (.write place content Node.fileMode)
  | .ok (.there place (.file _ mode _)) => .ok (.write place content mode)
  | .ok (.there ..) => .error (.system .isDirectory)
  | .error e => .error e

def makingDirectory (h : Host) (p : Path) : Result Change :=
  match h.reach false p with
  | .ok (.free place) => .ok (.makeDirectory place)
  | .ok (.there ..) => .error (.system .alreadyExists)
  | .error e => .error e

def removing (h : Host) (p : Path) : Result Change :=
  match h.reach false p with
  | .ok (.free _) => .error (.system .noEntry)
  | .ok (.there _ (.directory ..)) => .error (.system .isDirectory)
  | .ok (.there place _) => .ok (.remove place)
  | .error e => .error e

def settingMode (h : Host) (p : Path) (mode : Int) : Result Change :=
  match h.node p with
  | .ok (place, _) => .ok (.setMode place (Node.permissions mode))
  | .error e => .error e

/-- The change that makes one file a copy of another. -/
def copying (h : Host) (source target : Path) : Result Change :=
  match h.node source, h.node target with
  | .ok (a, _), .ok (b, _) =>
    if a = b then .error (.system (.other "SameFileError"))
    else (h.bytes source).bind (h.writing target)
  | _, _ => (h.bytes source).bind (h.writing target)

end Host

/-- Work on a host. What has been done stays done when work fails later on. -/
abbrev Work := ExceptT Error (StateM Host)

namespace Work

/-- What can be seen of the host. -/
def look {α : Type} (f : Host → Result α) : Work α := do
  match f (← get) with
  | .ok a => return a
  | .error e => throw e

/-- One change, if it can be made. -/
def perform (f : Host → Result Change) : Work Unit := do
  let c ← look f
  modify fun h => h.change c

/-- The result of work, or the error of the system that it ended in. Other errors go on. -/
def attempt {α : Type} (w : Work α) : Work (Except Errno α) :=
  tryCatch (do return .ok (← w)) fun
    | .system e => return .error e
    | e => throw e

def warn (text : String) : Work Unit := modify fun h => h.log .warning text

/-- The number of a new identifier. -/
def issue : Work Nat := do
  modify fun h => { h with issued := h.issued + 1 }
  return (← get).issued

def isFile (p : Path) : Work Bool := look fun h => h.isNode Node.isFile p

def isDirectory (p : Path) : Work Bool := look fun h => h.isNode Node.isDirectory p

def exists_ (p : Path) : Work Bool := look fun h => h.isNode (fun _ => true) p

def realPath (p : Path) : Work Path := look fun h => h.realPath p

def readBytes (p : Path) : Work (List UInt8) := look fun h => h.bytes p

def readText (p : Path) : Work String := look fun h => h.text p

/-- The kind and the permissions of a file or directory. -/
def fullMode (p : Path) : Work Nat := look fun h => do
  let (_, n) ← h.node p
  return n.mode + (if n.isDirectory then 0o40000 else 0o100000)

def names (p : Path) : Work (List String) := look fun h => h.names p

def writeBytes (p : Path) (content : List UInt8) : Work Unit := perform fun h => h.writing p content

def writeText (p : Path) (s : String) : Work Unit := writeBytes p (Text.toBytes s)

def setMode (p : Path) (mode : Int) : Work Unit := perform fun h => h.settingMode p mode

def copy (source target : Path) : Work Unit := perform fun h => h.copying source target

def remove (p : Path) : Work Unit := perform fun h => h.removing p

/-- Removes a file if there is one. -/
def discard (p : Path) : Work Unit := do
  match ← attempt (remove p) with
  | .ok () | .error .noEntry => return
  | .error e => throw (.system e)

def makeDirectory (p : Path) : Work Unit := perform fun h => h.makingDirectory p

/-- Goes on after a directory could not be made if there is one already. -/
def acceptDirectory (p : Path) (e : Errno) : Work Unit := do
  if !(← isDirectory p) then throw (.system e)

/-- Makes a directory, unless there is one, and the directories that it lies in. The count bounds
how many of those there are. -/
def makeDirectoriesWithin : Nat → Path → Work Unit
  | 0, p => makeDirectory p
  | above + 1, p => do
    match ← attempt (makeDirectory p) with
    | .ok () => return
    | .error .noEntry =>
      makeDirectoriesWithin above p.parent
      match ← attempt (makeDirectory p) with
      | .ok () => return
      | .error .noEntry => throw (.system .noEntry)
      | .error e => acceptDirectory p e
    | .error e => acceptDirectory p e

def makeDirectories (p : Path) : Work Unit := makeDirectoriesWithin p.parts.length p

/-- Makes a directory that must not be there, and the directories that it lies in. -/
def makeNewDirectory (p : Path) : Work Unit := do
  match ← attempt (makeDirectory p) with
  | .ok () => return
  | .error .noEntry =>
    makeDirectories p.parent
    makeDirectory p
  | .error e => throw (.system e)

end Work
end Vitrine
