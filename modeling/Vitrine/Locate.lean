import Vitrine.Preview.Scaffold
import Vitrine.Registry

/-!
Finding a preview file. A target is the path of a preview file, of the directory of one or of a
component beside one, or else a registered id. Where a preview file is missing, one can be made.
-/
namespace Vitrine

/-- The name of the preview file of a directory. -/
def previewFileName : String := "preview.yaml"

def componentSuffixes : List String := [".tsx", ".jsx", ".ts", ".js"]

/-- Whether a name looks like the name of a component's file. -/
def isComponentFile (p : Path) : Bool :=
  componentSuffixes.contains p.suffix && !"index.".toList.isPrefixOf p.name.toList

/-- The first component file of some names in a directory. -/
def firstComponent (directory : Path) : List String → Work (Option Path)
  | [] => return none
  | name :: names => do
    let p := directory.child name
    if (← Work.isFile p) && isComponentFile p then return some p
    else firstComponent directory names

/-- The first component file in a directory. -/
def findComponent (directory : Path) : Work (Option Path) := do
  firstComponent directory (← Work.names directory)

/-- A preview file that is missing, and the component that it would name. -/
structure Offer where
  previewFile : Path
  component : Path

namespace Offer

def question (o : Offer) : String :=
  "Cannot find a preview file at " ++ o.previewFile.text ++
    ". Do you want to create a template preview file?"

/-- Makes the missing preview file. -/
def accept (o : Offer) : Work Path := do
  let source := Preview.relativeText o.previewFile.parent o.component
  Work.realPath (← Preview.scaffold o.previewFile source)

/-- What follows from the answer to the question. -/
def settle (o : Offer) (agreed : Bool) : Work Path :=
  if agreed then o.accept else throw .declined

end Offer

/-- What a target leads to. -/
inductive Located where
  | found (file : Path)
  | missing (offer : Offer)

namespace Located

/-- A preview file where one is expected, beside a component or else beside the first one there. -/
def beside (previewFile : Path) (component : Option Path) : Work Located := do
  if ← Work.isFile previewFile then return .found (← Work.realPath previewFile)
  let component ← match component with
    | some component => pure (some component)
    | none => findComponent previewFile.parent
  match component with
  | some component => return .missing ⟨previewFile, component⟩
  | none => throw (.notFound (.component previewFile.parent))

/-- The preview file registered under an id. -/
def registered (r : Registry) (id : String) : Work Located := do
  match ← r.lookup id with
  | none => throw (.notFound (.target id))
  | some file =>
    if !(← Work.isFile file) then throw (.notFound (.registeredFile id file))
    return .found file

end Located

/-- What a target leads to, relative paths beginning in a directory. -/
def seek (target : String) (r : Registry) (workingDirectory : Path) : Work Located := do
  let p := workingDirectory.join (Path.ofText target)
  if ← Work.isDirectory p then Located.beside (p.child previewFileName) none
  else if ← Work.isFile p then
    if Preview.isPreviewFile p then return .found (← Work.realPath p)
    else Located.beside (p.parent.child previewFileName) (some p)
  else Located.registered r target


/-- The preview file that a target leads to. Without anyone to answer, no question is asked and no
file made. -/
def locate (target : String) (r : Registry) (workingDirectory : Path) (answer : Option Bool) :
    Work (List String × Result Path) := do
  match ← tryCatch (Except.ok <$> seek target r workingDirectory) (fun e => return .error e) with
  | .error e => return ([], .error e)
  | .ok (.found file) => return ([], .ok file)
  | .ok (.missing offer) =>
    let outcome ← tryCatch (Except.ok <$> offer.settle (answer.getD false))
      (fun e => return .error e)
    return (if answer.isSome then [offer.question] else [], outcome)

end Vitrine
