import Vitrine.Error
import Vitrine.Preview.Descriptor
import Vitrine.Yaml.Document

/-!
The contents of a preview file: which component to mount, and with what props and style.
-/
namespace Vitrine
namespace Preview

/-- A height or width. -/
inductive Dimension where
  | text (s : String)
  | int (n : Int)
  | float (x : Float)

def Dimension.toData : Dimension → Data
  | text s => .str s
  | int n => .int n
  | float x => .float x

structure Config where
  source : String
  id : Option String
  componentName : Option String
  output : Option String
  language : Option Language
  height : Option Dimension
  width : Option Dimension
  style : List (Key × Data)
  importStyle : ImportStyle
  props : Data
  legacyNulls : Bool

/-- The issues of a value that is no dimension: why it is no text, no integer and no number. -/
def dimensionIssues (a b c : Complaint) : List Issue :=
  [⟨["str"], a⟩, ⟨["int"], b⟩, ⟨["float"], c⟩]

/-- A text or a number; truth values count as integers. -/
def dimensionOf : Data → Checked Dimension
  | .str s => .valid (.text s)
  | .int n => .valid (.int n)
  | .float x => .valid (.float x)
  | .bool b => .valid (.int (if b then 1 else 0))
  | .bytes _ bs =>
    match Text.ofBytes? bs with
    | some s => .valid (.text s)
    | none => .invalid (dimensionIssues .encoding .integerText .numberText)
  | _ => .invalid (dimensionIssues .text .integer .number)

/-- A value that null leaves out. -/
def optionalOf {α : Type} (readField : Data → Checked α) : Data → Checked (Option α)
  | .null => .valid none
  | v => (readField v).map some

/-- A style: a mapping, or null for an empty one. -/
def styleOf : Data → Checked (List (Key × Data))
  | .null => .valid []
  | v => mappingOf v

/-- An import style; the words of older preview files count as well. -/
def configImportStyle (v : Data) : Checked ImportStyle :=
  match v with
  | .null => .valid .default
  | .str s =>
    match ImportStyle.ofName? s with
    | some style => .valid style
    | none => Checked.fail (.importStyle s)
  | v => choiceOf importStyles v

namespace Config

/-- The configuration that a mapping holds. -/
def ofEntries (entries : List (Key × Data)) : Checked Config :=
  Config.mk
    <$> field entries ["source"] (Checked.fail .required) textOf
    <*> field entries ["id"] (.valid none) optionalText
    <*> field entries ["componentName", "component_name"] (.valid none) optionalText
    <*> field entries ["output"] (.valid none) optionalText
    <*> field entries ["language"] (.valid none) (optionalOf (choiceOf languages))
    <*> field entries ["height"] (.valid none) (optionalOf dimensionOf)
    <*> field entries ["width"] (.valid none) (optionalOf dimensionOf)
    <*> field entries ["style"] (.valid []) styleOf
    <*> field entries ["importStyle", "import_style"] (.valid .default) configImportStyle
    <*> field entries ["props"] (.valid .null) .valid
    <*> field entries ["legacyNulls", "legacy_nulls"] (.valid false) booleanOf

end Config

/-- The entries of the mapping in a preview file; an empty file is an empty mapping. -/
def readEntries (file : Path) (text : String) : Result (List (Key × Data)) :=
  let location : Location := ⟨some file, none⟩
  match Yaml.read text with
  | .error .invalid => .error (.config .invalidDocument location)
  | .error (.fault f) => .error (.fault f)
  | .ok .null => .ok []
  | .ok (.object _ entries) => .ok entries
  | .ok _ => .error (.config .documentNotMapping location)

/-- The configuration that the entries of a preview file are. -/
def readConfig (file : Path) (entries : List (Key × Data)) : Result Config :=
  match Config.ofEntries entries with
  | .valid config => .ok config
  | .invalid issues => .error (.config (.invalidFields issues) ⟨some file, none⟩)

end Preview
end Vitrine
