import Vitrine.Json
import Vitrine.Value.Display

/-!
Values as JSON texts. Undefined values and functions are left out of objects and become null in
arrays; values that JSON does not know are a fault.
-/
namespace Vitrine
namespace Script

variable {ι : Type}

/-- The name that a key has in JSON. -/
def keyName : Key → Except Fault String
  | .str s => .ok s
  | .null => .ok "null"
  | .bool b => .ok (if b then "true" else "false")
  | .int n => writtenInt n
  | .float x => .ok (Decimal.floatText Json.specials x)
  | .date _ | .datetime _ | .bytes _ => .error .type

/-- Whether a value has no place in JSON. -/
def isOmitted : Value ι → Bool
  | .undefined | .function .. | .builtin _ | .method .. => true
  | _ => false

mutual

/-- The JSON value of a value that is not omitted. -/
def toJson : Value ι → Except Fault Json
  | .null => .ok .null
  | .bool b => .ok (.bool b)
  | .int n => do
    let _ ← writtenInt n
    return .int n
  | .float x => .ok (.float x)
  | .str s => .ok (.str s)
  | .array _ items => do return .array (← toJsonItems items)
  | .object _ entries => do return .object (← toJsonEntries entries)
  | .pair v w => do
    let first ← toJson v
    return .array [first, ← toJson w]
  | .undefined | .date .. | .datetime .. | .bytes .. | .set .. | .function .. | .builtin _
  | .method .. => .error .type

def toJsonItems : List (Value ι) → Except Fault (List Json)
  | [] => .ok []
  | v :: vs => do
    let j ← if isOmitted v then pure .null else toJson v
    return j :: (← toJsonItems vs)

def toJsonEntries : List (Key × Value ι) → Except Fault (List (String × Json))
  | [] => .ok []
  | (k, v) :: es =>
    if isOmitted v then toJsonEntries es
    else do
      let name ← keyName k
      let j ← toJson v
      return (name, j) :: (← toJsonEntries es)

end

/-- The JSON text of a value; values without a place in JSON have none. -/
def stringify (v : Value ι) : Except Fault (Option String) :=
  if isOmitted v then .ok none else do return some ((← toJson v).write Json.compact)

mutual

/-- The value that a JSON value stands for. -/
def ofJson : Json → Data
  | .null => .null
  | .bool b => .bool b
  | .int n => .int n
  | .float x => .float x
  | .str s => .str s
  | .array items => .array () (ofJsonItems items)
  | .object members => .object () (ofJsonMembers members)

def ofJsonItems : List Json → List Data
  | [] => []
  | j :: js => ofJson j :: ofJsonItems js

def ofJsonMembers : List (String × Json) → List (Key × Data)
  | [] => []
  | (name, j) :: ms => (.str name, ofJson j) :: ofJsonMembers ms

end

end Script
end Vitrine
