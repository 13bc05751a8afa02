import Vitrine.Decimal.Double
import Vitrine.Text.Digit

/-!
Reading numbers. An integer is a run of digits with an optional sign; single underscores may stand
between digits, digits of any script count, and at most 4300 decimal digits are read. A double may
also have a fraction and an exponent, or be spelled as an infinity or NaN, and is rounded to
nearest.
-/
namespace Vitrine
namespace Decimal

/-- The number of decimal digits beyond which integers are neither read nor written. -/
def digitLimit : Nat := 4300

/-- Decimal digits of any script become ASCII digits. -/
def foldDigit (c : Char) : Char :=
  match Text.digitValue? c with
  | some d => Char.ofNat (48 + d)
  | none => c

/-- The value of a digit in bases up to 36. -/
def digitOf? (c : Char) : Option Nat :=
  if Text.isAsciiDigit c then some (c.toNat - 48)
  else if 'a' ≤ c && c ≤ 'z' then some (c.toNat - 87)
  else if 'A' ≤ c && c ≤ 'Z' then some (c.toNat - 55)
  else none

/-- The values of the digits of a run in which single underscores stand between digits only. -/
def digitRun? (base : Nat) : List Char → Option (List Nat)
  | [] => none
  | [c] => (digitOf? c).bind fun d => if d < base then some [d] else none
  | c :: '_' :: cs =>
    (digitOf? c).bind fun d => if d < base then (digitRun? base cs).map (d :: ·) else none
  | c :: cs =>
    (digitOf? c).bind fun d => if d < base then (digitRun? base cs).map (d :: ·) else none

def ofDigits (base : Nat) (ds : List Nat) : Nat := ds.foldl (fun n d => n * base + d) 0

/-- A sign and the rest. -/
def splitSign : List Char → Bool × List Char
  | '-' :: cs => (true, cs)
  | '+' :: cs => (false, cs)
  | cs => (false, cs)

/-- The base that a letter behind a leading zero stands for. -/
def baseOfLetter? : Char → Option Nat
  | 'x' | 'X' => some 16
  | 'o' | 'O' => some 8
  | 'b' | 'B' => some 2
  | _ => none

/-- The base of a run of digits and the run without its base mark. Base zero leaves the choice to
the mark; without one the base is ten, and a number other than zero may not begin with a zero. -/
def splitBase? (base : Nat) (cs : List Char) : Option (Nat × List Char) :=
  let marked : Option (Nat × List Char) :=
    match cs with
    | '0' :: c :: rest =>
      (baseOfLetter? c).bind fun b =>
        if base = 0 || base = b then
          some (b, match rest with | '_' :: r => r | r => r)
        else none
    | _ => none
  match marked with
  | some m => some m
  | none =>
    if base = 0 then
      match cs with
      | '0' :: rest => if rest.all fun c => c = '0' || c = '_' then some (10, cs) else none
      | _ => some (10, cs)
    else some (base, cs)

/-- The integer that a text without outer blanks denotes in a base from 2 to 36, or in base zero.
-/
def intIn? (base : Nat) (cs : List Char) : Option Int :=
  if base = 1 || 36 < base then none
  else
    let (negative, rest) := splitSign (cs.map foldDigit)
    (splitBase? base rest).bind fun (b, run) =>
      (digitRun? b run).bind fun ds =>
        if digitLimit < ds.length && !(b = 2 || b = 4 || b = 8 || b = 16 || b = 32) then none
        else
          let n : Int := ofDigits b ds
          some (if negative then -n else n)

def int? (cs : List Char) : Option Int := intIn? 10 cs

/-- A text without its underscores; none if one does not stand between two digits. -/
def dropUnderscores? (before : Char) : List Char → Option (List Char)
  | [] => if before = '_' then none else some []
  | c :: cs =>
    if c = '_' then
      if Text.isAsciiDigit before then dropUnderscores? c cs else none
    else if before = '_' && !Text.isAsciiDigit c then none
    else (dropUnderscores? c cs).map (c :: ·)

/-- The digits at the front. -/
def leadingDigits (cs : List Char) : List Char := cs.takeWhile Text.isAsciiDigit

def digitsValue (cs : List Char) : Nat := ofDigits 10 (cs.map fun c => c.toNat - 48)

/-- The exponent behind a mantissa; none if the rest is anything else. -/
def exponent? : List Char → Option Int
  | [] => some 0
  | c :: cs =>
    if c = 'e' || c = 'E' then
      let (negative, digits) := splitSign cs
      if digits.isEmpty || !digits.all Text.isAsciiDigit then none
      else
        let n : Int := digitsValue digits
        some (if negative then -n else n)
    else none

/-- The double nearest to `digits × 10 ^ exponent`. -/
def ofScientific (negative : Bool) (digits : Nat) (exponent : Int) : Float :=
  let size : Int := (Nat.toDigits 10 digits).length + exponent
  let rounded :=
    if digits = 0 || size < -400 then nearest? negative 0 1
    else if 400 < size then none
    else if 0 ≤ exponent then nearest? negative (digits * tenTo exponent.toNat) 1
    else nearest? negative digits (tenTo (-exponent).toNat)
  rounded.getD (if negative then negativeInfinity else infinity)

/-- The words for doubles that are no numbers. -/
def special? (negative : Bool) (cs : List Char) : Option Float :=
  let word := String.ofList (cs.map Char.toLower)
  if word = "inf" || word = "infinity" then
    some (if negative then negativeInfinity else infinity)
  else if word = "nan" then some notANumber
  else none

/-- The double that a text without outer blanks denotes. -/
def float? (cs : List Char) : Option Float :=
  (dropUnderscores? ' ' (cs.map foldDigit)).bind fun text =>
    let (negative, rest) := splitSign text
    match special? negative rest with
    | some x => some x
    | none =>
      let whole := leadingDigits rest
      let afterWhole := rest.drop whole.length
      let (fraction, afterFraction) :=
        match afterWhole with
        | '.' :: cs => (leadingDigits cs, cs.drop (leadingDigits cs).length)
        | cs => ([], cs)
      if whole.isEmpty && fraction.isEmpty then none
      else
        (exponent? afterFraction).map fun e =>
          ofScientific negative (digitsValue (whole ++ fraction)) (e - fraction.length)

end Decimal
end Vitrine
