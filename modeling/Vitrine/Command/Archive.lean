import Vitrine.Command.Execute
import Vitrine.Json.Reader

/-!
Archives: the files of a project as one JSON object, from their paths to their texts. A directory
has null in the place of a text.
-/
namespace Vitrine
namespace Archive

/-- A host with nothing on it, where relative paths begin at the root. -/
def emptyHost (processId : Int) (now : String) : Host := {
  store := Store.empty, history := [], workingDirectory := Path.ofText "/", logs := [], issued := 0
  processId, running := [], now }

/-- Puts one member of an archive on the host. -/
def place (name : String) (content : Json) : Work Unit := do
  let p := Path.ofText name
  match content with
  | .str s =>
    Work.makeDirectories p.parent
    Work.writeText p s
  | _ => Work.makeDirectories p

/-- Puts an archive on the host; what is no path of a file is left out. -/
def unpack : List (String × Json) → Work Unit
  | [] => return
  | (name, content) :: more => do
    tryCatch (place name content) fun _ => return
    unpack more

/-- What an archive says about one node; links and files that hold no text are left out. -/
def packNode : Place × Node → Option (String × Json)
  | (place, .directory ..) => some (Path.joinParts place, .null)
  | (place, .file content _ _) =>
    (Text.ofBytes? content).map fun s => (Path.joinParts place, .str s)
  | (_, .link _) => none

/-- The archive of a store. -/
def pack (s : Store) : Json := .object (s.nodes.filterMap packNode)

/-- Where to find the members of an archive. -/
def members : Json → List (String × Json)
  | .object ms => ms
  | _ => []

/-- A dev server that ends well as soon as it is waited for. -/
def quietScript : Script Unit := {
  exitCode := 0, timeouts := 0, ignoresTermination := false, startError := none
  signalAtStart := none, waitFails := false, duringStart := id, duringWait := fun _ => id
  onTermination := id, duringRestoration := id }

/-- A shell on the files of an archive. -/
def shell (environment : Variables) (archive input : String) (now : String) : Shell Unit :=
  let files := match Json.read true archive with
    | .ok j => members j
    | .error _ => []
  let (_, host) := (unpack files).run.run (emptyHost 1 now)
  { host := { host with history := [] }, environment, console := Console.ofInput input
    script := quietScript, session := none, outside := () }

end Archive
end Vitrine
