import Vitrine.Preview.Code
import Vitrine.Preview.Descriptor

/-!
The code of the entry file that mounts one component. Its first line marks it as generated.
-/
namespace Vitrine
namespace Preview

/-- The first line of every generated entry file. -/
def generatedMarker : String :=
  "// This content was auto-generated! DO NOT ATTEMPT TO EDIT OR REMOVE"

def quoteModuleChar (c : Char) : List Char :=
  if c = '\\' || c = '\'' then ['\\', c] else [c]

/-- A module path between single quotes. -/
def quoteModule (path : String) : String :=
  "'" ++ String.ofList (path.toList.flatMap quoteModuleChar) ++ "'"

namespace Descriptor

def importText (d : Descriptor) : String :=
  let module := quoteModule d.modulePath
  match d.importStyle with
  | .default => "import " ++ d.componentName ++ " from " ++ module
  | .named => "import \x7b" ++ d.componentName ++ "\x7d from " ++ module
  | .namespace_ => "import * as " ++ d.componentName ++ " from " ++ module
  | .dynamicRequire => "const " ++ d.componentName ++ " = require(" ++ module ++ ")"

def attributes : List (Key × Data) → Except Fault (List String)
  | [] => .ok []
  | (k, v) :: es => do
    let s ← attributeText (← k.text) v
    return s :: (← attributes es)

/-- The component inside an element that carries the style. -/
def elementText (d : Descriptor) : Except Fault String := do
  let opening := joinWith " " (d.componentName :: (← attributes d.props))
  let style ← toCode (.object () d.style : Data)
  return "<div style=\x7b" ++ style ++ "\x7d><" ++ opening ++ " /></div>"

/-- The whole entry file. -/
def code (d : Descriptor) : Except Fault String := do
  let element ← d.elementText
  return generatedMarker ++ "\n\n" ++
    "import React from 'react';\n" ++
    "import ReactDOM from 'react-dom';\n" ++
    "import './index.css';\n" ++
    d.importText ++ "\n\n" ++
    "ReactDOM.render(\n" ++
    "  <React.StrictMode>\n" ++
    "    " ++ element ++ "\n" ++
    "  </React.StrictMode>,\n" ++
    "  document.getElementById('root')\n" ++
    ");\n"

end Descriptor

end Preview
end Vitrine
