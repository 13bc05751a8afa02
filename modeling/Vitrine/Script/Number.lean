import Vitrine.Decimal.Reader
import Vitrine.Fault
import Vitrine.Text.Blank
import Vitrine.Value.Display

/-!
The numbers of the expression language: integers, exact and without bound, and doubles. An
operation on two integers stays exact where it can; as soon as a double takes part, an integer is
rounded to the nearest double first, and one beyond all doubles is a fault.
-/
namespace Vitrine
namespace Script

inductive Number where
  | int (n : Int)
  | float (x : Float)

namespace Number

def nan : Number := .float Decimal.notANumber

def infinity : Number := .float Decimal.infinity

def negativeInfinity : Number := .float Decimal.negativeInfinity

def toValue {ι : Type} : Number → Value ι
  | .int n => .int n
  | .float x => .float x

/-- The double nearest to a number. -/
def toFloat : Number → Except Fault Float
  | .float x => .ok x
  | .int n =>
    match Decimal.ofInt? n with
    | some x => .ok x
    | none => .error .overflow

/-- Whether a number is NaN; asking this of an integer rounds it first. -/
def isNaN (a : Number) : Except Fault Bool := do return (← a.toFloat).isNaN

def isNaNFloat : Number → Bool
  | .float x => x.isNaN
  | .int _ => false

def isFinite : Number → Bool
  | .float x => (Decimal.Binary.ofFloat? x).isSome
  | .int _ => true

/-- Exact equality. -/
def eq : Number → Number → Bool
  | .int m, .int n => m == n
  | .float x, .float y => x == y
  | .int m, .float x | .float x, .int m =>
    match Decimal.Binary.ofFloat? x with
    | some b => b.compareInt m == .eq
    | none => false

/-- Exact order. -/
def lt : Number → Number → Bool
  | .int m, .int n => m < n
  | .float x, .float y => x < y
  | .int m, .float x =>
    match Decimal.Binary.ofFloat? x with
    | some b => b.compareInt m == .lt
    | none => Decimal.isInfinite x && !Decimal.isNegative x
  | .float x, .int n =>
    match Decimal.Binary.ofFloat? x with
    | some b => b.compareInt n == .gt
    | none => Decimal.isInfinite x && Decimal.isNegative x

def isZero (a : Number) : Bool := a.eq (.int 0)

/-- A whole double below 2 ^ 53 in size becomes an integer. -/
def normalize (x : Float) : Number :=
  match Decimal.Binary.ofFloat? x with
  | some b => if b.isWhole && b.floor.natAbs < Decimal.twoTo 53 then .int b.floor else .float x
  | none => .float x

/-- An operation that is exact on integers. -/
def combine (onInts : Int → Int → Int) (onFloats : Float → Float → Float) :
    Number → Number → Except Fault Number
  | .int m, .int n => .ok (.int (onInts m n))
  | a, b => do return .float (onFloats (← a.toFloat) (← b.toFloat))

def add : Number → Number → Except Fault Number := combine (· + ·) (· + ·)

def sub : Number → Number → Except Fault Number := combine (· - ·) (· - ·)

def mul : Number → Number → Except Fault Number := combine (· * ·) (· * ·)

def neg : Number → Number
  | .int n => .int (-n)
  | .float x => .float (-x)

def abs : Number → Number
  | .int n => .int n.natAbs
  | .float x => .float x.abs

/-- The quotient: of two integers the double nearest to it, and an integer where it is whole and
small. -/
def div (a b : Number) : Except Fault Number := do
  if b.isZero then
    if a.isZero || (← a.isNaN) then return nan
    else return if lt (.int 0) a then infinity else negativeInfinity
  else
    match a, b with
    | .int m, .int n =>
      match Decimal.nearest? ((m < 0) != (n < 0)) m.natAbs n.natAbs with
      | some x => return normalize x
      | none => throw .overflow
    | a, b => return normalize ((← a.toFloat) / (← b.toFloat))

/-- The remainder of doubles; an infinite dividend has none. -/
def floatRemainder (x y : Float) : Except Fault Float :=
  match Decimal.Binary.ofFloat? x, Decimal.Binary.ofFloat? y with
  | some a, some b => .ok (Decimal.remainder a b)
  | some _, none => .ok (if Decimal.isInfinite y then x else Decimal.notANumber)
  | none, _ =>
    if Decimal.isInfinite x && !y.isNaN then .error .value else .ok Decimal.notANumber

/-- The remainder with the sign of the dividend, computed on doubles. -/
def mod (a b : Number) : Except Fault Number := do
  if b.isZero then return nan
  else
    let x ← a.toFloat
    let y ← b.toFloat
    let r ← floatRemainder x y
    match a, b with
    | .int _, .int _ => return .int (((Decimal.Binary.ofFloat? r).map (·.trunc)).getD 0)
    | _, _ => return .float r

/-- The integer next to a number on the side of zero. -/
def toInt : Number → Except Fault Int
  | .int n => .ok n
  | .float x =>
    match Decimal.Binary.ofFloat? x with
    | some b => .ok b.trunc
    | none => .error (if Decimal.isInfinite x then .overflow else .value)

def floor : Number → Number
  | .int n => .int n
  | .float x => ((Decimal.Binary.ofFloat? x).map fun b => .int b.floor).getD (.float x)

def ceil : Number → Number
  | .int n => .int n
  | .float x => ((Decimal.Binary.ofFloat? x).map fun b => .int b.ceil).getD (.float x)

/-- The nearest integer, a half going up; the sum with a half is rounded to a double. -/
def round (a : Number) : Except Fault Number :=
  if a.isFinite then do return (← a.add (.float 0.5)).floor else .ok a

def sqrt (a : Number) : Except Fault Number := do
  if lt a (.int 0) then return nan
  else if a.isFinite then return normalize (← a.toFloat).sqrt
  else return a

/-- The power of doubles. A power of one is not a number where the exponent is infinite, and
whatever has the exponent zero is one. -/
def pow (a b : Number) : Except Fault Number := do
  let x ← a.toFloat
  let y ← b.toFloat
  if y.isNaN then return nan
  else if y == 0 then return .int 1
  else if x.isNaN || (x.abs == 1 && Decimal.isInfinite y) then return nan
  else return normalize (x.pow y)

/-- The greatest of some numbers; the first of equal ones. -/
def greatest (first : Number) (others : List Number) : Number :=
  others.foldl (fun best n => if lt best n then n else best) first

def least (first : Number) (others : List Number) : Number :=
  others.foldl (fun best n => if lt n best then n else best) first

end Number

/-- The number that a text denotes; blank texts are zero and other texts NaN. -/
def numberOfText (s : String) : Number :=
  let cs := Text.stripChars s.toList
  if cs.isEmpty then .int 0
  else
    match Decimal.int? cs with
    | some n => .int n
    | none =>
      match Decimal.float? cs with
      | some x => .float x
      | none => Number.nan

/-- A value as a number. -/
def toNumber {ι : Type} : Value ι → Number
  | .bool b => .int (if b then 1 else 0)
  | .int n => .int n
  | .float x => .float x
  | .null => .int 0
  | .str s => numberOfText s
  | _ => Number.nan

end Script
end Vitrine
