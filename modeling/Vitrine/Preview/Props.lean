import Vitrine.Preview.Function

/-!
Props as a preview file gives them. A mapping with a `kind` is tagged: it names the kind of the
value under `value`; other mappings and all arrays are read item by item. Functions are built from a
specification or compiled from their source.
-/
namespace Vitrine
namespace Preview

/-- The kinds of tagged values. -/
inductive ValueKind where
  | object | array | string | number | boolean | null | undefined | function
  deriving DecidableEq, Repr

def valueKinds : List (String × ValueKind) := [
  ("object", .object), ("array", .array), ("string", .string), ("number", .number),
  ("boolean", .boolean), ("null", .null), ("undefined", .undefined), ("function", .function)]

/-- How props are read. -/
structure Reading where
  /-- Whether null stays null; otherwise it becomes an empty object, as in early preview files. -/
  strict : Bool
  /-- The preview file, for error messages. -/
  file : Option Path

namespace Reading

def fail {α : Type} (r : Reading) (keyPath : String) (problem : ConfigProblem) : Result α :=
  .error (.config problem ⟨r.file, some keyPath⟩)

/-- A key path with the number of an item. -/
def itemPath (keyPath : String) (position : Nat) : String :=
  keyPath ++ "[" ++ Decimal.intText position ++ "]"

/-- The name of a type of values that code cannot hold. -/
def typeName? : Data → Option String
  | .undefined => some "_Undefined"
  | .bytes .. => some "bytes"
  | .set .. => some "set"
  | .pair .. => some "tuple"
  | .function .. => some "PreviewFunction"
  | .builtin _ | .method .. => some "function"
  | _ => none

mutual

/-- Checks that code can hold a value, which is taken as it is. -/
def checkPlain (r : Reading) (keyPath : String) : Data → Result Unit
  | .array _ items => checkItems r keyPath 0 items
  | .object _ entries => checkEntries r keyPath entries
  | v =>
    match typeName? v with
    | some name => r.fail keyPath (.unsupported name)
    | none => .ok ()

def checkItems (r : Reading) (keyPath : String) (position : Nat) : List Data → Result Unit
  | [] => .ok ()
  | v :: vs => do
    checkPlain r (itemPath keyPath position) v
    checkItems r keyPath (position + 1) vs

def checkEntries (r : Reading) (keyPath : String) : List (Key × Data) → Result Unit
  | [] => .ok ()
  | (k, v) :: es => do
    checkPlain r (keyPath ++ "." ++ (← Result.ofFault k.text)) v
    checkEntries r keyPath es

end

/-- The value of a tagged value of a kind without parts of its own. -/
def plain (r : Reading) (keyPath : String) (payload : Data) : Result Data := do
  r.checkPlain keyPath payload
  return payload

/-- A function, from its specification or else from its source. -/
def functionOf (r : Reading) (keyPath : String) (entries : List (Key × Data)) : Result Data :=
  match (Entries.get? "spec" entries).getD .null with
  | .null =>
    match (Entries.get? "value" entries).getD .null with
    | .null => .ok (.function () noopFunction)
    | .str source => do
      return .function () (← compileFunction source ⟨r.file, some (keyPath ++ ".value")⟩)
    | _ => r.fail (keyPath ++ ".value") .notSourceText
  | spec =>
    match FunctionSpec.ofValue spec with
    | .invalid issues => r.fail (keyPath ++ ".spec") (.invalidSpec issues)
    | .valid spec => do
      return .function () (← buildFunction spec ⟨r.file, some (keyPath ++ ".spec")⟩)

/-- The kind that a tagged value names. -/
def kindOf (r : Reading) (keyPath : String) (named : Data) : Result ValueKind := do
  match named with
  | .str s =>
    match valueKinds.lookup s with
    | some kind => return kind
    | none => r.fail keyPath (.unknownKind (Text.quote s))
  | v => r.fail keyPath (.unknownKind (← Result.ofFault v.shown))

mutual

def read (r : Reading) (keyPath : String) : Data → Result Data
  | .array _ items => do return .array () (← readItems r keyPath 0 items)
  | .null => .ok (if r.strict then .null else .object () [])
  | .object _ entries =>
    match Entries.get? "kind" entries with
    | some named => do
      match ← r.kindOf keyPath named with
      | .object => readObjectPayload r keyPath entries
      | .array => readArrayPayload r keyPath entries
      | .string | .number | .boolean =>
        r.plain (keyPath ++ ".value") ((Entries.get? "value" entries).getD .null)
      | .null => return .null
      | .undefined => return .undefined
      | .function => r.functionOf keyPath entries
    | none => do return .object () (Entries.ofList (← readEntries r keyPath entries))
  | v => r.plain keyPath v

def readItems (r : Reading) (keyPath : String) (position : Nat) :
    List Data → Result (List Data)
  | [] => .ok []
  | v :: vs => do
    let w ← read r (itemPath keyPath position) v
    return w :: (← readItems r keyPath (position + 1) vs)

/-- The entries of an object; keys become texts. -/
def readEntries (r : Reading) (keyPath : String) :
    List (Key × Data) → Result (List (Key × Data))
  | [] => .ok []
  | (k, v) :: es => do
    let name ← Result.ofFault k.text
    let w ← read r (keyPath ++ "." ++ name) v
    return (.str name, w) :: (← readEntries r keyPath es)

/-- The object under `value`; it is not tagged itself. -/
def readObjectPayload (r : Reading) (keyPath : String) : List (Key × Data) → Result Data
  | [] => .ok (.object () [])
  | (.str "value", .null) :: _ => .ok (.object () [])
  | (.str "value", .object _ entries) :: _ => do
    return .object () (Entries.ofList (← readEntries r (keyPath ++ ".value") entries))
  | (.str "value", _) :: _ => r.fail (keyPath ++ ".value") .notMapping
  | _ :: es => readObjectPayload r keyPath es

/-- The array under `value`. -/
def readArrayPayload (r : Reading) (keyPath : String) : List (Key × Data) → Result Data
  | [] => .ok (.array () [])
  | (.str "value", .null) :: _ => .ok (.array () [])
  | (.str "value", .array _ items) :: _ => do
    return .array () (← readItems r (keyPath ++ ".value") 0 items)
  | (.str "value", _) :: _ => r.fail (keyPath ++ ".value") .notSequence
  | _ :: es => readArrayPayload r keyPath es

end

end Reading

/-- Reads props; the key path of the whole is `props`. -/
def interpret (r : Reading) (v : Data) : Result Data := r.read "props" v

end Preview
end Vitrine
