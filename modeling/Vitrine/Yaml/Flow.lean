import Vitrine.Value.Display

/-!
Values written in flow style. Texts stand between double quotes and every other scalar carries its
tag, so that reading a document gives back the value that it was written for.
-/
namespace Vitrine
namespace Yaml

def flowChar (c : Char) : List Char :=
  if c = '"' || c = '\\' then ['\\', c]
  else if ' ' ≤ c ∧ c ≤ '~' then [c]
  else '\\' :: 'U' :: Text.hexDigits 8 c.toNat

/-- A text between double quotes. -/
def flowText (s : String) : String :=
  "\"" ++ String.ofList (s.toList.flatMap flowChar) ++ "\""

/-- A scalar with its tag. -/
def tagged (tag s : String) : String := "!!" ++ tag ++ " " ++ flowText s

def flowSpecials : Decimal.Specials := ⟨".nan", ".inf"⟩

/-- The digits of base sixty-four. -/
def sextets : List Char :=
  "ABCDEFGHIJKLMNOPQRSTUVWXYZabcdefghijklmnopqrstuvwxyz0123456789+/".toList

def sextet (n : Nat) : Char := (sextets[n % 64]?).getD 'A'

/-- Bytes in base sixty-four. -/
def sixtyFour : List UInt8 → List Char
  | a :: b :: c :: rest =>
    let n := a.toNat * 65536 + b.toNat * 256 + c.toNat
    sextet (n / 262144) :: sextet (n / 4096) :: sextet (n / 64) :: sextet n :: sixtyFour rest
  | [a, b] =>
    let n := a.toNat * 65536 + b.toNat * 256
    [sextet (n / 262144), sextet (n / 4096), sextet (n / 64), '=']
  | [a] => [sextet (a.toNat / 4), sextet (a.toNat * 16), '=', '=']
  | [] => []

def flowBytes (bs : List UInt8) : String := tagged "binary" (String.ofList (sixtyFour bs))

def flowKey : Key → String
  | .null => tagged "null" "null"
  | .bool b => tagged "bool" (if b then "true" else "false")
  | .int n => tagged "int" (Decimal.intText n)
  | .float x => tagged "float" (Decimal.floatText flowSpecials x)
  | .str s => flowText s
  | .date d => tagged "timestamp" d.text
  | .datetime t => tagged "timestamp" t.isoText
  | .bytes bs => flowBytes bs

/-- A mapping, from the texts of its keys and values. -/
def flowMapping (entries : List (String × String)) : String :=
  "\x7b" ++ joinWith ", " (entries.map fun e => "? " ++ e.1 ++ " : " ++ e.2) ++ "\x7d"

def flowNull : String := flowKey .null

variable {ι : Type}

mutual

/-- A value in flow style; what no document can hold is written as null. -/
def flow : Value ι → String
  | .null | .undefined | .function .. | .builtin _ | .method .. => flowNull
  | .bool b => flowKey (.bool b)
  | .int n => flowKey (.int n)
  | .float x => flowKey (.float x)
  | .str s => flowText s
  | .date _ d => flowKey (.date d)
  | .datetime _ t => flowKey (.datetime t)
  | .bytes _ bs => flowBytes bs
  | .set _ keys => "!!set " ++ flowMapping (keys.map fun k => (flowKey k, flowNull))
  | .array _ items => "[" ++ joinWith ", " (flowItems items) ++ "]"
  | .object _ entries => flowMapping (flowEntries entries)
  | .pair v w => "[" ++ flow v ++ ", " ++ flow w ++ "]"

def flowItems : List (Value ι) → List String
  | [] => []
  | v :: vs => flow v :: flowItems vs

def flowEntries : List (Key × Value ι) → List (String × String)
  | [] => []
  | (k, v) :: es => (flowKey k, flow v) :: flowEntries es

end

end Yaml
end Vitrine
