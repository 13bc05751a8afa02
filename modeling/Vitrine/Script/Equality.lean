import Vitrine.Script.Number

/-!
Equality of values. Strict equality compares numbers exactly, texts and truth values by content
and everything else by identity; loose equality also takes null for undefined and compares
primitive values of different kinds as numbers.
-/
namespace Vitrine
namespace Script

variable {ι : Type} [DecidableEq ι]

/-- Whether two values are the same thing; byte strings of at most one byte exist once. -/
def sameThing : Value ι → Value ι → Bool
  | .undefined, .undefined => true
  | .date a _, .date b _ | .datetime a _, .datetime b _ | .set a _, .set b _
  | .array a _, .array b _ | .object a _, .object b _ | .function a _, .function b _
  | .method a _ _, .method b _ _ => a == b
  | .bytes a x, .bytes b y => a == b || (x == y && x.length ≤ 1)
  | .builtin f, .builtin g => f == g
  | _, _ => false

def strictEquals (a b : Value ι) : Bool :=
  match a, b with
  | .int _, .int _ | .int _, .float _ | .float _, .int _ | .float _, .float _ =>
    (toNumber a).eq (toNumber b)
  | .null, .null => true
  | .str s, .str t => s == t
  | .bool x, .bool y => x == y
  | a, b => sameThing a b

def isNullish : Value ι → Bool
  | .null | .undefined => true
  | _ => false

def isPrimitive (v : Value ι) : Bool :=
  v.typeName = "number" || v.typeName = "string" || v.typeName = "boolean"

def looseEquals (a b : Value ι) : Bool :=
  if isNullish a || isNullish b then isNullish a && isNullish b
  else if a.typeName = b.typeName then strictEquals a b
  else if isPrimitive a && isPrimitive b then (toNumber a).eq (toNumber b)
  else false

end Script
end Vitrine
