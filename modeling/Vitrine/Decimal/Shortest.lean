import Vitrine.Decimal.Double

/-!
The shortest decimal that reads back as a given double. A decimal reads back if it lies in the
interval of numbers that round to the double; among the decimals with the fewest digits the one
nearest to the double is taken.
-/
namespace Vitrine
namespace Decimal

/-- The number `digits × 10 ^ exponent`. -/
structure Scientific where
  digits : Nat
  exponent : Int

/-- A positive double and the ends of its interval, in units that make all three integers:
`value`, `low` and `high` stand for multiples of `num / den`. -/
structure Interval where
  low : Nat
  value : Nat
  high : Nat
  closed : Bool
  num : Nat
  den : Nat

/-- The interval around `mantissa × 2 ^ exponent`, in quarters of the last place. The neighbour
below a power of two is only half as far away. -/
def Interval.around (mantissa : Nat) (exponent : Int) : Interval :=
  let narrow := mantissa == twoTo 52 && exponent != -1074
  let e := exponent - 2
  { low := 4 * mantissa - (if narrow then 1 else 2)
    value := 4 * mantissa
    high := 4 * mantissa + 2
    closed := mantissa % 2 == 0
    num := if 0 ≤ e then twoTo e.toNat else 1
    den := if 0 ≤ e then 1 else twoTo (-e).toNat }

/-- The unit `10 ^ e` as a fraction. -/
def powerOfTen (e : Int) : Nat × Nat :=
  if 0 ≤ e then (tenTo e.toNat, 1) else (1, tenTo (-e).toNat)

/-- Whether `digits × 10 ^ e` lies in the interval. -/
def Interval.holds (i : Interval) (digits : Nat) (e : Int) : Bool :=
  let (p, q) := powerOfTen e
  let x := digits * p * i.den
  let low := i.low * i.num * q
  let high := i.high * i.num * q
  if i.closed then Nat.ble low x && Nat.ble x high else Nat.blt low x && Nat.blt x high

/-- The point of the grid `10 ^ e` nearest to the value among its two neighbours on the grid that
lie in the interval; of two equally near the even one. -/
def Interval.onGrid? (i : Interval) (e : Int) : Option Nat :=
  let (p, q) := powerOfTen e
  let below := i.value * i.num * q / (p * i.den)
  let past := i.value * i.num * q - below * (p * i.den)
  let above := below + 1
  match i.holds below e, i.holds above e with
  | true, false => some below
  | false, true => some above
  | false, false => none
  | true, true =>
    match compare (2 * past) (p * i.den) with
    | .lt => some below
    | .gt => some above
    | .eq => some (if below % 2 = 0 then below else above)

/-- The number of decimal digits in front of the point; zero or less for numbers below one. -/
def Interval.magnitude (i : Interval) : Int :=
  let whole := i.value * i.num / i.den
  if whole ≠ 0 then (Nat.toDigits 10 whole).length
  else
    -- below one: the digits of the reciprocal count the zeros behind the point
    let inverse := i.den / (i.value * i.num)
    1 - ((Nat.toDigits 10 inverse).length : Int)

/-- Tries `count` digits, then one more, until the grid has a point in the interval. -/
def Interval.search (i : Interval) (magnitude : Int) : Nat → Nat → Scientific
  | 0, _ => ⟨i.value, 0⟩
  | tries + 1, count =>
    let e := magnitude - count
    match i.onGrid? e with
    | some digits => ⟨digits, e⟩
    | none => i.search magnitude tries (count + 1)

/-- Strips the zeros at the end of the digits. -/
def Scientific.normal : Nat → Scientific → Scientific
  | 0, s => s
  | fuel + 1, s =>
    if s.digits % 10 = 0 && s.digits ≠ 0 then Scientific.normal fuel ⟨s.digits / 10, s.exponent + 1⟩
    else s

/-- The shortest decimal for the size of a finite double. -/
def shortest (b : Binary) : Scientific :=
  if b.mantissa = 0 then ⟨0, 0⟩
  else
    let i := Interval.around b.mantissa b.exponent
    Scientific.normal 20 (i.search i.magnitude 19 1)

end Decimal
end Vitrine
