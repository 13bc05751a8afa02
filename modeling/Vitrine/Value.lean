import Vitrine.Calendar
import Vitrine.Script.Syntax

/-!
Values: what preview files hold, what props are made of and what expressions compute.

Arrays, objects and functions are told apart by identity, not by content, when expressions compare
them. A value therefore carries an identity at each of them: the type of identities is a parameter,
and values outside evaluation, where nothing is compared, carry none.
-/
namespace Vitrine

/-- Keys of mappings. -/
inductive Key where
  | null
  | bool (b : Bool)
  | int (n : Int)
  | float (x : Float)
  | str (s : String)
  | date (d : Date)
  | datetime (t : DateTime)
  | bytes (bs : List UInt8)

/-- A function given as source text. The body is missing if the text looks like a function but lies
outside the grammar; such a function can be written out but not called. -/
structure PropFunction where
  params : List String
  source : String
  body : Option (List Script.Stmt)

/-- The functions that expressions find by name. -/
inductive Builtin where
  | mathAbs | mathFloor | mathCeil | mathRound | mathSqrt | mathPow | mathMax | mathMin
  | jsonStringify | jsonParse
  | consoleLog | consoleInfo | consoleWarn | consoleError
  | objectKeys | objectValues
  | arrayIsArray
  | string | number | boolean | error | parseInt | parseFloat | isNaN
  deriving DecidableEq, Repr

/-- The methods of strings and arrays. -/
inductive Method where
  | toUpperCase | toLowerCase | trim | startsWith | endsWith | toText
  | join | map | filter
  | includes | indexOf | slice | concat
  deriving DecidableEq, Repr

inductive Value (ι : Type) where
  | null
  | undefined
  | bool (b : Bool)
  | int (n : Int)
  | float (x : Float)
  | str (s : String)
  | date (id : ι) (d : Date)
  | datetime (id : ι) (t : DateTime)
  | bytes (id : ι) (bs : List UInt8)
  | set (id : ι) (keys : List Key)
  | array (id : ι) (items : List (Value ι))
  | object (id : ι) (entries : List (Key × Value ι))
  /-- An entry of an ordered mapping. -/
  | pair (first second : Value ι)
  | function (id : ι) (f : PropFunction)
  | builtin (b : Builtin)
  /-- A method looked up on a string or an array, with the value that it belongs to. -/
  | method (id : ι) (receiver : Value ι) (m : Method)

/-- A value outside evaluation. -/
abbrev Data := Value Unit

namespace Key

/-- Numbers and truth values are one key if they are equal as numbers. -/
def number? : Key → Option (Int ⊕ Float)
  | .bool b => some (.inl (if b then 1 else 0))
  | .int n => some (.inl n)
  | .float x => some (.inr x)
  | _ => none

def sameNumber : Int ⊕ Float → Int ⊕ Float → Bool
  | .inl m, .inl n => m == n
  | .inl m, .inr x | .inr x, .inl m =>
    match Decimal.Binary.ofFloat? x with
    | some b => b.compareInt m == .eq
    | none => false
  | .inr x, .inr y => x == y || (x.isNaN && y.isNaN)

/-- Whether two keys are one key of a mapping. -/
def same (a b : Key) : Bool :=
  match a.number?, b.number? with
  | some m, some n => sameNumber m n
  | some _, none | none, some _ => false
  | none, none =>
    match a, b with
    | .null, .null => true
    | .str s, .str t => s == t
    | .date d, .date e => d == e
    | .datetime t, .datetime u => t == u
    | .bytes x, .bytes y => x == y
    | _, _ => false

end Key

/-- Entries with a key set: an entry with the same key keeps its place and its first spelling. -/
def Entries.insert {α : Type} (key : Key) (value : α) : List (Key × α) → List (Key × α)
  | [] => [(key, value)]
  | (k, v) :: es => if k.same key then (k, value) :: es else (k, v) :: Entries.insert key value es

/-- The mapping that entries describe: of entries with the same key the last value counts. -/
def Entries.ofList {α : Type} (entries : List (Key × α)) : List (Key × α) :=
  entries.foldl (fun es e => Entries.insert e.1 e.2 es) []

/-- The value under a text key. -/
def Entries.get? {α : Type} (name : String) : List (Key × α) → Option α
  | [] => none
  | (.str s, v) :: es => if s = name then some v else Entries.get? name es
  | _ :: es => Entries.get? name es

/-- Keys without those that repeat an earlier one. -/
def Key.dedup (keys : List Key) : List Key :=
  (Entries.ofList (keys.map fun k => (k, ()))).map (·.1)

/-- A key as a value of its own. -/
def Key.toValue : Key → Data
  | .null => .null
  | .bool b => .bool b
  | .int n => .int n
  | .float x => .float x
  | .str s => .str s
  | .date d => .date () d
  | .datetime t => .datetime () t
  | .bytes bs => .bytes () bs

namespace Value

variable {ι : Type}

def isCallable : Value ι → Bool
  | .function .. | .builtin _ | .method .. => true
  | _ => false

/-- What `typeof` says about a value. -/
def typeName : Value ι → String
  | .undefined => "undefined"
  | .bool _ => "boolean"
  | .int _ | .float _ => "number"
  | .str _ => "string"
  | .function .. | .builtin _ | .method .. => "function"
  | _ => "object"

/-- Truth: empty arrays and objects are true, empty strings, zeros and NaN are not. -/
def truthy : Value ι → Bool
  | .null | .undefined => false
  | .bool b => b
  | .int n => n ≠ 0
  | .float x => !(x == 0) && !x.isNaN
  | .str s => s ≠ ""
  | _ => true

mutual

/-- The value with other identities. -/
def mapId {κ : Type} (f : ι → κ) : Value ι → Value κ
  | .null => .null
  | .undefined => .undefined
  | .bool b => .bool b
  | .int n => .int n
  | .float x => .float x
  | .str s => .str s
  | .date id d => .date (f id) d
  | .datetime id t => .datetime (f id) t
  | .bytes id bs => .bytes (f id) bs
  | .set id keys => .set (f id) keys
  | .array id items => .array (f id) (mapIdItems f items)
  | .object id entries => .object (f id) (mapIdEntries f entries)
  | .pair v w => .pair (v.mapId f) (w.mapId f)
  | .function id g => .function (f id) g
  | .builtin b => .builtin b
  | .method id receiver m => .method (f id) (receiver.mapId f) m

def mapIdItems {κ : Type} (f : ι → κ) : List (Value ι) → List (Value κ)
  | [] => []
  | v :: vs => v.mapId f :: mapIdItems f vs

def mapIdEntries {κ : Type} (f : ι → κ) : List (Key × Value ι) → List (Key × Value κ)
  | [] => []
  | (k, v) :: es => (k, v.mapId f) :: mapIdEntries f es

end

/-- The value without identities. -/
def forget (v : Value ι) : Data := v.mapId fun _ => ()

end Value

end Vitrine
