/-!
Doubles as exact numbers. A finite double is an integer times a power of two, so its integer
part, its order among the integers and the double nearest to a quotient are computed exactly.
-/
namespace Vitrine
namespace Decimal

/-- The power of two; `Nat.pow` itself, whichever notion of power is in scope. -/
def twoTo (n : Nat) : Nat := Nat.pow 2 n

def tenTo (n : Nat) : Nat := Nat.pow 10 n

/-- A finite double: a mantissa, a power of two and a sign. -/
structure Binary where
  negative : Bool
  mantissa : Nat
  exponent : Int

def isNegative (x : Float) : Bool := x.toBits.toNat / twoTo 63 == 1

namespace Binary

/-- The exact value of a double; NaN and the infinities have none. -/
def ofFloat? (x : Float) : Option Binary :=
  let bits : Nat := x.toBits.toNat
  let field : Nat := bits / twoTo 52 % twoTo 11
  let fraction : Nat := bits % twoTo 52
  let negative := bits / twoTo 63 == 1
  if field = 2047 then none
  else if field = 0 then some ⟨negative, fraction, -1074⟩
  else some ⟨negative, fraction + twoTo 52, (field : Int) - 1075⟩

def signed (b : Binary) : Int :=
  if b.negative then -(b.mantissa : Int) else b.mantissa

/-- The greatest integer that is not above the number. -/
def floor (b : Binary) : Int :=
  if 0 ≤ b.exponent then b.signed * twoTo b.exponent.toNat
  else b.signed / twoTo (-b.exponent).toNat

def ceil (b : Binary) : Int := -floor { b with negative := !b.negative }

/-- The integer next to the number on the side of zero. -/
def trunc (b : Binary) : Int := if b.negative then b.ceil else b.floor

def isWhole (b : Binary) : Bool :=
  0 ≤ b.exponent || b.mantissa % twoTo (-b.exponent).toNat == 0

/-- The order between an integer and the number. -/
def compareInt (n : Int) (b : Binary) : Ordering :=
  if 0 ≤ b.exponent then compare n (b.signed * twoTo b.exponent.toNat)
  else compare (n * twoTo (-b.exponent).toNat) b.signed

end Binary

/-- The number of units of `2 ^ e` nearest to `num / den`; of two, the even one. -/
def roundedUnits (num den : Nat) (e : Int) : Nat :=
  let n := if 0 ≤ e then num else num * twoTo (-e).toNat
  let d := if 0 ≤ e then den * twoTo e.toNat else den
  let q := n / d
  match compare (2 * (n % d)) d with
  | .lt => q
  | .gt => q + 1
  | .eq => if q % 2 = 0 then q else q + 1

/-- The exponent of the last place of the double below `num / den`. -/
def lastPlace (num den : Nat) : Int :=
  let e : Int := (num.log2 : Int) - den.log2 - 52
  let reached :=
    if 0 ≤ e then den * twoTo e.toNat * twoTo 52 ≤ num
    else den * twoTo 52 ≤ num * twoTo (-e).toNat
  max (-1074) (if reached then e else e - 1)

/-- The double nearest to a quotient, a tie going to the even mantissa; none if the quotient is
beyond the greatest double. -/
def nearest? (negative : Bool) (num den : Nat) : Option Float :=
  let bits :=
    if num = 0 then 0
    else
      let e := lastPlace num den
      let units := roundedUnits num den e
      if units < twoTo 52 then units else (e + 1075).toNat * twoTo 52 + (units - twoTo 52)
  if bits < 2047 * twoTo 52 then
    some (Float.ofBits (UInt64.ofNat (if negative then bits + twoTo 63 else bits)))
  else none

def infinity : Float := Float.ofBits 0x7ff0000000000000

def negativeInfinity : Float := Float.ofBits 0xfff0000000000000

def notANumber : Float := Float.ofBits 0x7ff8000000000000

def isInfinite (x : Float) : Bool := x.toBits.toNat % twoTo 63 == 2047 * twoTo 52

/-- The double nearest to an integer. -/
def ofInt? (n : Int) : Option Float := nearest? (n < 0) n.natAbs 1

/-- The remainder of a division that rounds toward zero; it has the sign of the dividend. -/
def remainder (a b : Binary) : Float :=
  let e := min a.exponent b.exponent
  let m := a.mantissa * twoTo (a.exponent - e).toNat % (b.mantissa * twoTo (b.exponent - e).toNat)
  let num := if 0 ≤ e then m * twoTo e.toNat else m
  let den := if 0 ≤ e then 1 else twoTo (-e).toNat
  (nearest? a.negative num den).getD notANumber

end Decimal
end Vitrine
