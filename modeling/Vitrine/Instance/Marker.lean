import Vitrine.Host
import Vitrine.Instance.Backup
import Vitrine.Json.Reader
import Vitrine.Preview.Descriptor

/-!
Markers: one file for each session that is running. A marker says which entry file the session owns
and how to bring that file back.
-/
namespace Vitrine

structure Marker where
  entry : Path
  workingDirectory : Path
  language : Json
  createdAt : Json
  /-- Where the marker is kept. -/
  file : Path
  /-- The process that the session runs in. -/
  processId : Int
  /-- The mode of the entry file; null if there was none. -/
  fileMode : Json
  /-- The copy of the entry file. -/
  backup : Option Path

namespace Marker

def namePrefix : String := "react_preview_"

def nameSuffix : String := ".json"

/-- The name of a marker with a number. -/
def nameOf (number : Nat) : String :=
  let ds := Text.hexDigits 32 number
  let part (start length : Nat) : String := String.ofList ((ds.drop start).take length)
  namePrefix ++ joinWith "-" [part 0 8, part 8 4, part 12 4, part 16 4, part 20 12] ++ nameSuffix

/-- Whether a name is the name of a marker. -/
def isName (name : String) : Bool :=
  namePrefix.toList.isPrefixOf name.toList && nameSuffix.toList.isSuffixOf name.toList

/-- What stands in the file of a marker. -/
def toJson (m : Marker) : Json := .object [
  ("indexFilename", .str m.entry.text),
  ("workingDirectory", .str m.workingDirectory.text),
  ("language", m.language),
  ("createdAt", m.createdAt),
  ("pid", .int m.processId),
  ("fileMode", m.fileMode),
  ("backupFile", match m.backup with
    | some p => .str p.text
    | none => .null)]

/-! ## Reading -/

/-- Whether a member says nothing: null, false, zero or nothing in it. -/
def isVoid : Json → Bool
  | .null | .bool false | .int 0 | .str "" | .array [] | .object [] => true
  | .float x => x == 0
  | _ => false

def pathOf : Json → Except Fault Path
  | .str s => .ok (Path.ofText s)
  | _ => .error .type

/-- The whole number that a member stands for. -/
def numberOf : Json → Except Fault Int
  | .int n => .ok n
  | .bool b => .ok (if b then 1 else 0)
  | .float x =>
    match Decimal.Binary.ofFloat? x with
    | some b => .ok b.trunc
    | none => .error (if x == x then .overflow else .value)
  | .str s =>
    match Decimal.int? (Text.stripChars s.toList) with
    | some n => .ok n
    | none => .error .value
  | _ => .error .type

/-- A number where a void member stands for zero. -/
def processIdOf (j : Json) : Except Fault Int := if isVoid j then .ok 0 else numberOf j

def backupOf (j : Json) : Except Fault (Option Path) :=
  if isVoid j then .ok none else (pathOf j).map some

/-- A member, or what stands for a missing one. -/
def memberOr (default : Json) (j : Json) (name : String) : Json := (j.member? name).getD default

/-- The marker that a value describes; the entry file has to be named. -/
def ofJson (file : Path) (j : Json) : Except Fault Marker := do
  match j with
  | .object _ => pure ()
  | _ => throw .attribute
  let entry ← match j.member? "indexFilename" with
    | some e => pathOf e
    | none => throw .key
  let workingDirectory ← pathOf (memberOr (.str "") j "workingDirectory")
  let processId ← processIdOf (memberOr .null j "pid")
  let backup ← backupOf (memberOr .null j "backupFile")
  return {
    entry, workingDirectory, file, processId, backup
    language := memberOr (.str "") j "language"
    createdAt := memberOr (.str "") j "createdAt"
    fileMode := memberOr .null j "fileMode" }

/-- Why a marker cannot be read: it is skipped for a reason, or a fault ends the reading. -/
inductive Trouble where
  | skipped (reason : String)
  | fault (f : Fault)

/-- The faults that a single marker is skipped for. -/
def isSkipped : Fault → Bool
  | .key | .type | .value | .decoding => true
  | _ => false

def Trouble.ofFault (f : Fault) : Trouble :=
  if isSkipped f then .skipped ("<" ++ f.label ++ ">") else .fault f

def Trouble.ofReadError : Json.ReadError → Trouble
  | .tooLong _ => Trouble.ofFault .value
  | _ => .skipped "<JSONDecodeError>"

/-- The marker that a text describes. -/
def ofText (file : Path) (text : String) : Except Trouble Marker :=
  match Json.read true text with
  | .error e => .error (Trouble.ofReadError e)
  | .ok j =>
    match ofJson file j with
    | .ok m => .ok m
    | .error f => .error (Trouble.ofFault f)

end Marker

/-- The markers and backups of one state directory. -/
structure Instances where
  directory : Path

namespace Instances

/-- The marker in a file. -/
def readMarker (file : Path) : Work (Except Marker.Trouble Marker) :=
  tryCatch (do
    let text ← Work.readText file
    return Marker.ofText file text) fun
    | .system e => return .error (.skipped e.shown)
    | .fault f => return .error (Marker.Trouble.ofFault f)
    | e => throw e

/-- The markers among files; those that cannot be read are left out with a warning. -/
def markersAmong (directory : Path) : List String → Work (List Marker)
  | [] => return []
  | name :: names => do
    let file := directory.child name
    if (← Work.isFile file) && Marker.isName name then
      match ← readMarker file with
      | .ok m => return m :: (← markersAmong directory names)
      | .error (.skipped reason) =>
        Work.warn ("Ignoring unreadable marker " ++ file.text ++ ": " ++ reason)
        markersAmong directory names
      | .error (.fault f) => throw (.fault f)
    else markersAmong directory names

/-- All markers, in the order of their files. -/
def markers (i : Instances) : Work (List Marker) := do
  if !(← Work.isDirectory i.directory) then return []
  markersAmong i.directory (← Work.names i.directory)

/-- The marker of the session that owns an entry file. -/
def find? (i : Instances) (entry : Path) : Work (Option Marker) := do
  return (← i.markers).find? fun m => m.entry.text = entry.text

/-- Whether a session owns an entry file. -/
def isOwned (i : Instances) (entry : Path) : Work Bool := do return (← i.find? entry).isSome

/-- Writes the marker of a new session. -/
def writeMarker (i : Instances) (entry workingDirectory : Path) (language : Preview.Language)
    (backup : Option Backup) : Work Marker := do
  Work.makeDirectories i.directory
  let host ← get
  let file := i.directory.child (Marker.nameOf (← Work.issue))
  let m : Marker := {
    entry, workingDirectory, file
    language := .str language.name
    createdAt := .str host.now
    processId := host.processId
    fileMode := match backup with
      | some b => .int b.mode
      | none => .null
    backup := backup.map (·.copy) }
  match ← Work.attempt (Work.writeText file (m.toJson.write Json.spaced)) with
  | .ok () => return m
  | .error e => throw (.backup (.marker file e))

def removeMarker (m : Marker) : Work Unit := do
  match ← Work.attempt (Work.discard m.file) with
  | .ok () => return
  | .error e => Work.warn ("Could not remove marker " ++ m.file.text ++ ": " ++ e.shown)

end Instances
end Vitrine
