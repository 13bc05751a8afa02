import Vitrine.Decimal.Shortest

/-!
The text of a number. Integers are written in full. A finite double is written with its shortest
digits: positionally, always with a point, while its decimal point lies not more than four places
before the first digit and not more than sixteen places behind it, and with an exponent of at
least two digits otherwise.
-/
namespace Vitrine
namespace Decimal

/-- How doubles are laid out. -/
structure Layout where
  /-- The smallest decimal exponent that is written positionally. -/
  smallest : Int
  /-- The first decimal exponent that is written with an exponent again. -/
  large : Int
  /-- The least number of digits of an exponent. -/
  exponentWidth : Nat

/-- The layout of all output. -/
def standard : Layout := ⟨-4, 16, 2⟩

def digitChars (n : Nat) : List Char := Nat.toDigits 10 n

/-- An integer, with a sign if it is negative. -/
def intChars (n : Int) : List Char :=
  if n < 0 then '-' :: digitChars n.natAbs else digitChars n.natAbs

def intText (n : Int) : String := String.ofList (intChars n)

def padLeft (width : Nat) (cs : List Char) : List Char :=
  List.replicate (width - cs.length) '0' ++ cs

/-- The digits of a decimal with its point at `point`, counted from the first digit. -/
def positional (digits : List Char) (point : Int) : List Char :=
  if point ≤ 0 then '0' :: '.' :: (List.replicate (-point).toNat '0' ++ digits)
  else
    let k := point.toNat
    if digits.length ≤ k then digits ++ List.replicate (k - digits.length) '0' ++ ['.', '0']
    else digits.take k ++ '.' :: digits.drop k

/-- The digits of a decimal with one digit in front of the point and an exponent. -/
def scientific (width : Nat) (digits : List Char) (exponent : Int) : List Char :=
  let head := digits.take 1
  let tail := digits.drop 1
  let fraction := if tail.isEmpty then [] else '.' :: tail
  let sign := if exponent < 0 then '-' else '+'
  head ++ fraction ++ 'e' :: sign :: padLeft width (digitChars exponent.natAbs)

def Layout.chars (l : Layout) (b : Binary) : List Char :=
  let s := shortest b
  let digits := digitChars s.digits
  let point := (digits.length : Int) + s.exponent
  let size :=
    if b.mantissa = 0 then positional digits 1
    else if l.smallest ≤ point - 1 && point - 1 < l.large then positional digits point
    else scientific l.exponentWidth digits (point - 1)
  if b.negative then '-' :: size else size

/-- The words for the doubles that are no numbers. -/
structure Specials where
  nan : String
  inf : String

/-- A double, with words for the doubles that are no numbers. -/
def floatText (names : Specials) (x : Float) : String :=
  match Binary.ofFloat? x with
  | some b => String.ofList (standard.chars b)
  | none =>
    if isInfinite x then (if isNegative x then "-" ++ names.inf else names.inf) else names.nan

end Decimal
end Vitrine
