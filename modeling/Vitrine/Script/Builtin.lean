import Vitrine.Json.Reader
import Vitrine.Script.Monad
import Vitrine.Script.Stringify
import Vitrine.Text.Case

/-!
The functions and methods that expressions can call, and the names that they are found by. A wrong
number of arguments is a fault.
-/
namespace Vitrine
namespace Script

/-! ## Names -/

def pi : Float := Float.ofBits 0x400921fb54442d18

def euler : Float := Float.ofBits 0x4005bf0a8b145769

def builtinTable : List (String × List (String × Cell)) := [
  ("Math", [
    ("PI", .float pi), ("E", .float euler), ("abs", .builtin .mathAbs),
    ("floor", .builtin .mathFloor), ("ceil", .builtin .mathCeil), ("round", .builtin .mathRound),
    ("sqrt", .builtin .mathSqrt), ("pow", .builtin .mathPow), ("max", .builtin .mathMax),
    ("min", .builtin .mathMin)]),
  ("JSON", [("stringify", .builtin .jsonStringify), ("parse", .builtin .jsonParse)]),
  ("console", [
    ("log", .builtin .consoleLog), ("info", .builtin .consoleInfo),
    ("warn", .builtin .consoleWarn), ("error", .builtin .consoleError)]),
  ("Object", [("keys", .builtin .objectKeys), ("values", .builtin .objectValues)]),
  ("Array", [("isArray", .builtin .arrayIsArray)])]

def namespaceOf (entry : String × List (String × Cell)) : String × Cell :=
  (entry.1, .object (.builtins entry.1) (entry.2.map fun e => (.str e.1, e.2)))

/-- The names that every expression sees. -/
def globals : Scope := builtinTable.map namespaceOf ++ [
  ("String", .builtin .string), ("Number", .builtin .number), ("Boolean", .builtin .boolean),
  ("Error", .builtin .error), ("parseInt", .builtin .parseInt),
  ("parseFloat", .builtin .parseFloat), ("isNaN", .builtin .isNaN),
  ("NaN", .float Decimal.notANumber), ("Infinity", .float Decimal.infinity)]

def stringMethods : List (String × Method) := [
  ("toUpperCase", .toUpperCase), ("toLowerCase", .toLowerCase), ("trim", .trim),
  ("includes", .includes), ("startsWith", .startsWith), ("endsWith", .endsWith),
  ("indexOf", .indexOf), ("slice", .slice), ("concat", .concat), ("toString", .toText)]

def arrayMethods : List (String × Method) := [
  ("join", .join), ("includes", .includes), ("indexOf", .indexOf), ("slice", .slice),
  ("concat", .concat), ("map", .map), ("filter", .filter)]

/-! ## Functions -/

/-- The sign and the digits at the front of a text. -/
def leadingDigits : List Char → List Char
  | c :: cs =>
    if c = '+' || c = '-' || isDigitLike c then c :: cs.takeWhile isDigitLike else []
  | [] => []
where
  isDigitLike (c : Char) : Bool := Text.isDecimalDigit c || Text.isDigitSign c

/-- The integer that a text begins with. -/
def leadingInt (cs : List Char) : Number :=
  ((Decimal.int? (leadingDigits cs)).map Number.int).getD Number.nan

def isBase (n : Int) : Bool := n = 0 || (2 ≤ n && n ≤ 36)

/-- The integer that a text denotes in a base, or else the one that it begins with. -/
def intOfText (cs : List Char) (base : Number) : Except Fault Number :=
  match base.toInt with
  | .ok n =>
    if isBase n then .ok (((Decimal.intIn? n.toNat cs).map Number.int).getD (leadingInt cs))
    else .ok (leadingInt cs)
  | .error .value => .ok (leadingInt cs)
  | .error f => .error f

def numbers (args : List Cell) : List Number := args.map toNumber

/-- The extreme of some numbers: not a number if one of them is none. -/
def extreme (none : Number) (choose : Number → List Number → Number) : List Number → Number
  | [] => none
  | n :: ns => if (n :: ns).any Number.isNaNFloat then Number.nan else choose n ns

/-- A value from outside evaluation, with fresh identities. -/
def adopt {ι : Type} (v : Value ι) : Eval Cell := do
  let t ← get
  let (cell, next) := identify t.next v
  set { t with next := next }
  return cell

/-- The JSON value of a text; what is wrong with the text is thrown. -/
def parseJson (v : Cell) : Eval Cell :=
  match v.display with
  | .error _ => malformed unwritableMessage
  | .ok text =>
    match Json.read false text with
    | .ok j => adopt (ofJson j)
    | .error e => malformed (e.message text.toList)
where
  malformed (message : String) : Eval Cell := do
    Eval.throwValue (← Eval.newObject [
      (.str "name", .str "SyntaxError"), (.str "message", .str message)])

def writeLog (level : Level) (args : List Cell) : Eval Cell := do
  Eval.log level (joinWith " " (← Eval.lift (args.mapM Value.display)))
  return .undefined

def makeError (message : String) : Eval Cell :=
  Eval.newObject [(.str "name", .str "Error"), (.str "message", .str message)]

/-- The number that an operation comes to. -/
def numberResult (r : Except Fault Number) : Eval Cell := do return (← Eval.lift r).toValue

def runBuiltin (b : Builtin) (args : List Cell) : Eval Cell :=
  match b, args with
  | .mathAbs, [v] => pure (toNumber v).abs.toValue
  | .mathFloor, [v] => pure (toNumber v).floor.toValue
  | .mathCeil, [v] => pure (toNumber v).ceil.toValue
  | .mathRound, [v] => numberResult (toNumber v).round
  | .mathSqrt, [v] => numberResult (toNumber v).sqrt
  | .mathPow, [v, w] => numberResult ((toNumber v).pow (toNumber w))
  | .mathMax, args => pure (extreme Number.negativeInfinity Number.greatest (numbers args)).toValue
  | .mathMin, args => pure (extreme Number.infinity Number.least (numbers args)).toValue
  | .jsonStringify, v :: _ => do
    return match ← Eval.lift (stringify v) with
      | some text => .str text
      | none => .undefined
  | .jsonParse, [v] => parseJson v
  | .consoleLog, args => writeLog .info args
  | .consoleInfo, args => writeLog .info args
  | .consoleWarn, args => writeLog .warning args
  | .consoleError, args => writeLog .error args
  | .objectKeys, [.object _ entries] => do
    Eval.newArray (← entries.mapM fun e => adopt (e.1.toValue))
  | .objectKeys, [_] => Eval.newArray []
  | .objectValues, [.object _ entries] => Eval.newArray (entries.map (·.2))
  | .objectValues, [_] => Eval.newArray []
  | .arrayIsArray, [.array ..] => pure (.bool true)
  | .arrayIsArray, [_] => pure (.bool false)
  | .string, [] => pure (.str "")
  | .string, [v] => do return .str (← Eval.lift v.display)
  | .number, [] => pure (.int 0)
  | .number, [v] => pure (toNumber v).toValue
  | .boolean, [] => pure (.bool false)
  | .boolean, [v] => pure (.bool v.truthy)
  | .error, [] => makeError ""
  | .error, [v] => do makeError (← Eval.lift v.display)
  | .parseInt, [v] => do
    numberResult (intOfText (Text.stripChars (← Eval.lift v.display).toList) (.int 10))
  | .parseInt, [v, base] => do
    numberResult (intOfText (Text.stripChars (← Eval.lift v.display).toList) (toNumber base))
  | .parseFloat, [v] => do
    return .float (← Eval.lift (numberOfText (← Eval.lift v.display)).toFloat)
  | .isNaN, [v] => do return .bool (← Eval.lift (toNumber v).isNaN)
  | _, _ => Eval.fault .type

/-! ## Methods -/

/-- The place of a bound of a slice; a negative bound counts from the end. -/
def slicePlace (length : Nat) (n : Int) : Nat :=
  if n < 0 then (n + length).toNat else min n.toNat length

/-- The items between two bounds; an end that is missing or null is the end of the list. -/
def slice {α : Type} (items : List α) (args : List Cell) : Except Fault (List α) := do
  let bound (v : Cell) : Except Fault Nat := do
    return slicePlace items.length (← (toNumber v).toInt)
  match args with
  | [] => return items
  | [start] => return items.drop (← bound start)
  | [start, .null] => return items.drop (← bound start)
  | [start, stop] =>
    let first ← bound start
    return (items.take (← bound stop)).drop first
  | _ => throw .type

/-- The items of an array as texts, missing ones being empty. -/
def joinItems (sep : String) (items : List Cell) : Except Fault String := do
  return joinWith sep (← Value.displayItems items)

def positionOf (v : Cell) (items : List Cell) : Int :=
  match items.findIdx? fun w => strictEquals w v with
  | some i => i
  | none => -1

def runStringMethod (s : String) (m : Method) (args : List Cell) : Eval Cell :=
  match m, args with
  | .toUpperCase, [] => pure (.str (Text.upper s))
  | .toLowerCase, [] => pure (.str (Text.lower s))
  | .trim, [] => pure (.str (Text.strip s))
  | .toText, [] => pure (.str s)
  | .includes, [v] => do return .bool (Text.find? (← Eval.lift v.display) s).isSome
  | .startsWith, [v] => do return .bool ((← Eval.lift v.display).toList.isPrefixOf s.toList)
  | .endsWith, [v] => do return .bool ((← Eval.lift v.display).toList.isSuffixOf s.toList)
  | .indexOf, [v] => do
    return match Text.find? (← Eval.lift v.display) s with
      | some i => .int i
      | none => .int (-1)
  | .slice, args => do return .str (String.ofList (← Eval.lift (slice s.toList args)))
  | .concat, args => do
    return .str (s ++ joinWith "" (← Eval.lift (args.mapM Value.display)))
  | _, _ => Eval.fault .type

/-- The methods of arrays that call nothing back. -/
def runArrayMethod (items : List Cell) (m : Method) (args : List Cell) : Eval Cell :=
  match m, args with
  | .join, [] => do return .str (← Eval.lift (joinItems "," items))
  | .join, [sep] => do
    let sep ← Eval.lift sep.display
    return .str (← Eval.lift (joinItems sep items))
  | .includes, [v] => pure (.bool (items.any fun w => strictEquals w v))
  | .indexOf, [v] => pure (.int (positionOf v items))
  | .slice, args => do Eval.newArray (← Eval.lift (slice items args))
  | .concat, args =>
    Eval.newArray (items ++ args.flatMap fun
      | .array _ more => more
      | v => [v])
  | _, _ => Eval.fault .type

def runMethod (receiver : Cell) (m : Method) (args : List Cell) : Eval Cell :=
  match receiver with
  | .str s => runStringMethod s m args
  | .array _ items => runArrayMethod items m args
  | _ => Eval.fault .type

/-! ## Calls -/

/-- How prop functions are run. -/
abbrev Invoke := PropFunction → List Cell → Eval Cell

/-- Calls back with an item and its position. The methods that call back themselves take one
argument, so they cannot be called in this way. -/
def callBack (invoke : Invoke) (f item : Cell) (position : Nat) : Eval Cell :=
  match f with
  | .function _ g => invoke g [item, .int position]
  | .builtin b => runBuiltin b [item, .int position]
  | .method _ receiver m => runMethod receiver m [item, .int position]
  | _ => Eval.fault .type

def mapItems (invoke : Invoke) (f : Cell) (position : Nat) : List Cell → Eval (List Cell)
  | [] => pure []
  | v :: vs => do
    let w ← callBack invoke f v position
    return w :: (← mapItems invoke f (position + 1) vs)

def filterItems (invoke : Invoke) (f : Cell) (position : Nat) : List Cell → Eval (List Cell)
  | [] => pure []
  | v :: vs => do
    let w ← callBack invoke f v position
    let rest ← filterItems invoke f (position + 1) vs
    return if w.truthy then v :: rest else rest

/-- Calls a value; calling what is no function is a fault. -/
def call (invoke : Invoke) (f : Cell) (args : List Cell) : Eval Cell :=
  match f, args with
  | .method _ (.array _ items) .map, [g] => do Eval.newArray (← mapItems invoke g 0 items)
  | .method _ (.array _ items) .filter, [g] => do Eval.newArray (← filterItems invoke g 0 items)
  | .function _ g, args => invoke g args
  | .builtin b, args => runBuiltin b args
  | .method _ receiver m, args => runMethod receiver m args
  | _, _ => Eval.fault .type

end Script
end Vitrine
