import Vitrine.Preview.Component
import Vitrine.Preview.Config
import Vitrine.Preview.EntryCode
import Vitrine.Preview.Props
import Vitrine.Settings

/-!
From a preview file to the entry file that it replaces, and to the code that goes there.
-/
namespace Vitrine
namespace Preview

/-- The entries of the mapping in a preview file. -/
def loadEntries (file : Path) : Work (List (Key × Data)) := do
  match ← Work.attempt (Work.readText file) with
  | .ok text => Work.look fun _ => readEntries file text
  | .error .noEntry => throw (.notFound (.previewFile file))
  | .error e => throw (.config (.unreadable file e) Location.nowhere)

def loadConfig (file : Path) : Work Config := do
  let entries ← loadEntries file
  Work.look fun _ => readConfig file entries

/-! ## Descriptors -/

def dimensionOrAuto : Option Dimension → Data
  | some d => d.toData
  | none => .str "auto"

/-- The style of the element around the component: height and width, and then the style that the
preview file gives, which wins. -/
def resolveStyle (c : Config) : List (Key × Data) :=
  Entries.ofList ((.str "height", dimensionOrAuto c.height) ::
    (.str "width", dimensionOrAuto c.width) :: c.style)

/-- The component's name: the given one, or one made from the name of its file. -/
def resolveName (c : Config) (configFile : Path) (component : Path) : Result String :=
  match c.componentName.filter (· ≠ "") with
  | some name => .ok name
  | none =>
    match componentName? component.name with
    | some name => .ok name
    | none => .error (.config (.noIdentifier component.name) ⟨some configFile, some "source"⟩)

/-- The entries of the mapping that the props are; null stands for none. -/
def resolveProps (c : Config) (configFile : Path) : Result (List (Key × Data)) := do
  match ← interpret ⟨!c.legacyNulls, some configFile⟩ c.props with
  | .null => return []
  | .object _ entries => return entries
  | _ => throw (.config .propsNotMapping ⟨some configFile, some "props"⟩)

/-- The props of a descriptor: their keys have to be texts. -/
def checkProps (props : List (Key × Data)) : Result (List (Key × Data)) :=
  match (mappingOf (.object () props)).within "props" with
  | .valid props => .ok props
  | .invalid issues => .error (.invalidDescriptor issues)

/-- The path that an entry file imports a component by. -/
def importPath (entry component : Path) : Work String := do
  let component ← Work.realPath component
  return modulePath (← Work.realPath entry) component

/-- The descriptor of a preview for an entry file. -/
def resolve (c : Config) (configFile entry : Path) (language : Language) : Work Descriptor := do
  let component ← Work.realPath (configFile.parent.join (Path.ofText c.source))
  if !(← Work.isFile component) then throw (.notFound (.componentFile component))
  let name ← Work.look fun _ => resolveName c configFile component
  let props ← Work.look fun _ => resolveProps c configFile
  let path ← importPath entry component
  let props ← Work.look fun _ => checkProps props
  return ⟨name, c.importStyle, path, props, resolveStyle c, c.language.getD language⟩

/-- Loads a preview file and resolves it for an entry file. -/
def resolveFile (configFile entry : Path) (language : Language) : Work Descriptor := do
  resolve (← loadConfig configFile) configFile entry language

/-! ## Entry files -/

/-- The language of an entry file that a preview file names, by its suffix. -/
def languageOfSuffix (suffix : String) : Language :=
  if suffix = ".tsx" || suffix = ".ts" then .ts else .js

/-- The entry file in a directory, and its language. Without a given language, a `tsconfig.json`
decides. -/
def detectEntry (directory : Option Path) (workingDirectory : Path) (language : Option Language) :
    Work (Path × Language) := do
  let directory := workingDirectory.join (directory.getD (Path.ofText "src"))
  if !(← Work.isDirectory directory) then throw (.notFound (.directory directory))
  let language ← match language with
    | some language => pure language
    | none => do
      let typed ← Work.exists_ (directory.child "tsconfig.json")
      pure (if typed then Language.ts else Language.js)
  return (← Work.realPath (directory.child language.entryName), language)

/-- The entry file that a preview replaces, and its language. An output that the preview file names
wins over the detection. -/
def resolveEntry (configFile : Path) (settings : Settings) (directory : Option Path) :
    Work (Path × Language) := do
  let c ← loadConfig configFile
  match c.output.filter (· ≠ "") with
  | some output =>
    let entry ← Work.realPath (configFile.parent.join (Path.ofText output))
    if !(← Work.isDirectory entry.parent) then throw (.notFound (.directory entry.parent))
    return (entry, c.language.getD (languageOfSuffix entry.suffix))
  | none => detectEntry directory settings.workingDirectory c.language

/-- The code of the entry file for the current content of a preview file. -/
def generate (configFile entry : Path) (language : Language) : Work String := do
  let d ← resolveFile configFile entry language
  Work.look fun _ => Result.ofFault d.code

/-- The entry file of a preview and the code that would be written there. -/
def render (configFile : Path) (settings : Settings) (directory : Option Path) :
    Work (Path × String) := do
  let (entry, language) ← resolveEntry configFile settings directory
  return (entry, ← generate configFile entry language)

end Preview
end Vitrine
