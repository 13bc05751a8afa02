import Vitrine.Preview.Field
import Vitrine.Files.Path

/-!
What the code of one preview depends on.
-/
namespace Vitrine
namespace Preview

/-- How the component is imported. -/
inductive ImportStyle where
  | default | named | namespace_ | dynamicRequire
  deriving DecidableEq, Repr

/-- The language of the entry file. -/
inductive Language where
  | ts | js
  deriving DecidableEq, Repr

def Language.name : Language → String
  | .ts => "ts"
  | .js => "js"

def Language.entryName : Language → String
  | .ts => "index.tsx"
  | .js => "index.jsx"

def languages : List (String × Language) := [("ts", .ts), ("js", .js)]

def importStyles : List (String × ImportStyle) := [
  ("default", .default), ("named", .named), ("namespace", .namespace_),
  ("dynamicRequire", .dynamicRequire)]

/-- Words of older preview files for import styles. -/
def olderImportStyles : List (String × ImportStyle) := [
  ("target", .named), ("require", .dynamicRequire)]

def ImportStyle.ofName? (s : String) : Option ImportStyle :=
  (importStyles.lookup s).or (olderImportStyles.lookup s)

def ImportStyle.name : ImportStyle → String
  | .default => "default"
  | .named => "named"
  | .namespace_ => "namespace"
  | .dynamicRequire => "dynamicRequire"

structure Descriptor where
  componentName : String
  importStyle : ImportStyle
  modulePath : String
  props : List (Key × Data)
  style : List (Key × Data)
  language : Language

/-- An import style by its name. -/
def importStyleOf (v : Data) : Checked ImportStyle :=
  match v with
  | .str s =>
    match ImportStyle.ofName? s with
    | some style => .valid style
    | none => Checked.fail (.choice (importStyles.map (·.1)))
  | v => choiceOf importStyles v

/-- The descriptor that a mapping of its fields describes. -/
def Descriptor.ofEntries (entries : List (Key × Data)) : Checked Descriptor :=
  Descriptor.mk
    <$> field entries ["component_name"] (Checked.fail .required) textOf
    <*> field entries ["import_style"] (.valid .default) importStyleOf
    <*> field entries ["source_module_path"] (Checked.fail .required) textOf
    <*> field entries ["props"] (.valid []) mappingOf
    <*> field entries ["style"] (.valid []) mappingOf
    <*> field entries ["language"] (.valid .ts) (choiceOf languages)

end Preview
end Vitrine
