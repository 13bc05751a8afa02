import Vitrine.Error
import Vitrine.Files.Path
import Vitrine.Preview.FunctionSpec

/-!
Names of components, made from file names, and the paths that modules are imported by.
-/
namespace Vitrine
namespace Preview

def isComponentStart (c : Char) : Bool := Text.isAsciiLetter c || c = '_'

def isComponentChar (c : Char) : Bool := isComponentStart c || Text.isAsciiDigit c

/-- Whether a text is a component name, a line feed behind it being passed over. -/
def isComponentName (s : String) : Bool :=
  match dropFinalNewline s.toList with
  | c :: cs => isComponentStart c && cs.all isComponentChar
  | [] => false

/-- The shortest cut at dots, from the end, that leaves a component name. -/
def nameWithoutSuffixes? : Nat → List Char → Option String
  | 0, _ => none
  | cuts + 1, cs =>
    if isComponentName (String.ofList cs) then some (String.ofList cs)
    else
      match Path.splitAtLastDot cs with
      | some (stem, _) => nameWithoutSuffixes? cuts stem
      | none => none

/-- The component name in a file name, without suffixes. -/
def componentName? (fileName : String) : Option String :=
  let name := (Path.ofText fileName).name.toList
  nameWithoutSuffixes? (name.length + 1) name

def deriveComponentName (fileName : String) : Result String :=
  match componentName? fileName with
  | some name => .ok name
  | none => .error (.config (.noIdentifier fileName) Location.nowhere)

/-- The suffixes of preview files. -/
def previewSuffixes : List String := [".yaml", ".yml"]

/-- Whether a file is a preview file by its name. -/
def isPreviewFile (p : Path) : Bool :=
  previewSuffixes.any fun s => p.suffix.toList.map Char.toLower == s.toList

/-- The parts of a path that lead from one directory to a path, both absolute. -/
def relativeParts : List String → List String → List String
  | d :: ds, p :: ps =>
    if d = p then relativeParts ds ps else (d :: ds).map (fun _ => "..") ++ p :: ps
  | ds, ps => ds.map (fun _ => "..") ++ ps

/-- A path as seen from a directory. -/
def relativeText (directory p : Path) : String :=
  match relativeParts directory.parts p.parts with
  | [] => "."
  | parts => Path.joinParts parts

/-- A file name without its suffix; dots at its beginning are no suffix. -/
def dropSuffix (name : List Char) : List Char :=
  let dots := name.takeWhile (· = '.')
  match Path.splitAtLastDot (name.drop dots.length) with
  | some (stem, _) => dots ++ stem
  | none => name

/-- A path with its last part changed. -/
def mapLast (f : List Char → List Char) : List String → List String
  | [] => []
  | [p] => [String.ofList (f p.toList)]
  | p :: ps => p :: mapLast f ps

/-- The path that the entry file imports a component by, both files being given by their real
paths. -/
def modulePath (entry component : Path) : String :=
  let parts := match relativeParts entry.parent.parts component.parts with
    | [] => ["."]
    | parts => mapLast dropSuffix parts
  let text := Path.joinParts parts
  if "../".toList.isPrefixOf text.toList then text else "./" ++ text

end Preview
end Vitrine
