import Vitrine.Fault
import Vitrine.Json
import Vitrine.Value.Display

/-!
Values as code: literals, and attributes of an element.
-/
namespace Vitrine
namespace Preview

variable {ι : Type}

mutual

/-- The literal that a value is written as. Texts and keys are quoted as in JSON, functions are
their own source; bytes, sets and built-in functions have no literal. -/
def toCode : Value ι → Except Fault String
  | .null => .ok "null"
  | .undefined => .ok "undefined"
  | .bool b => .ok (if b then "true" else "false")
  | .int n => writtenInt n
  | .float x => .ok (stringFloat x)
  | .str s => .ok (Json.quote false s)
  | .date _ d => .ok (Json.quote true d.text)
  | .datetime _ t => .ok (Json.quote true t.isoText)
  | .array _ items => do return "[" ++ joinWith "," (← toCodeItems items) ++ "]"
  | .object _ entries => do return "\x7b" ++ joinWith "," (← toCodeEntries entries) ++ "\x7d"
  | .pair v w => do
    let first ← toCode v
    return "[" ++ first ++ "," ++ (← toCode w) ++ "]"
  | .function _ f => .ok f.source
  | .bytes .. | .set .. | .builtin _ | .method .. => .error .type

def toCodeItems : List (Value ι) → Except Fault (List String)
  | [] => .ok []
  | v :: vs => do
    let s ← toCode v
    return s :: (← toCodeItems vs)

def toCodeEntries : List (Key × Value ι) → Except Fault (List String)
  | [] => .ok []
  | (k, v) :: es => do
    let name ← k.text
    let s ← toCode v
    return (Json.quote false name ++ ":" ++ s) :: (← toCodeEntries es)

end

/-- Whether a text can stand between double quotes as it is. -/
def isPlainAttribute (s : String) : Bool :=
  s.toList.all fun c => c ≠ '"' && c ≠ '\\' && c ≠ '\n' && c ≠ '\r' && c ≠ '&'

/-- An attribute: a plain text between quotes, and any other value as code between braces. -/
def attributeText (name : String) (v : Value ι) : Except Fault String :=
  let braced : Except Fault String := do
    return name ++ "=\x7b" ++ (← toCode v) ++ "\x7d"
  match v with
  | .str s => if isPlainAttribute s then .ok (name ++ "=\"" ++ s ++ "\"") else braced
  | _ => braced

end Preview
end Vitrine
