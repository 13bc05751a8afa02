import Vitrine.Text.Printable

/-!
Quoted texts for messages. A text stands between single quotes, or between double quotes if it
holds single quotes only; quotes that close the text, backslashes and characters that cannot be
seen are escaped.
-/
namespace Vitrine
namespace Text

def hexDigit (n : Nat) : Char :=
  if n < 10 then Char.ofNat (48 + n) else Char.ofNat (87 + n)

/-- The last `width` hexadecimal digits of `n`. -/
def hexDigits : Nat → Nat → List Char
  | 0, _ => []
  | width + 1, n => hexDigits width (n / 16) ++ [hexDigit (n % 16)]

/-- The quote that encloses a text. -/
def enclosingQuote (cs : List Char) : Char :=
  if cs.contains '\'' && !cs.contains '"' then '"' else '\''

def escapeCode (c : Char) : List Char :=
  let n := c.toNat
  if n ≤ 0xff then '\\' :: 'x' :: hexDigits 2 n
  else if n ≤ 0xffff then '\\' :: 'u' :: hexDigits 4 n
  else '\\' :: 'U' :: hexDigits 8 n

def quoteChar (quote c : Char) : List Char :=
  if c = quote || c = '\\' then ['\\', c]
  else if c = '\t' then ['\\', 't']
  else if c = '\n' then ['\\', 'n']
  else if c = '\r' then ['\\', 'r']
  else if isPrintable c then [c]
  else escapeCode c

def quoteChars (cs : List Char) : List Char :=
  let q := enclosingQuote cs
  q :: cs.flatMap (quoteChar q) ++ [q]

def quote (s : String) : String := String.ofList (quoteChars s.toList)

/-- A byte string: a `b` in front, and every byte beyond ASCII escaped. -/
def quoteBytes (bytes : List UInt8) : String :=
  let cs := bytes.map fun b => Char.ofNat b.toNat
  let q := enclosingQuote cs
  let body := cs.flatMap fun c => if c.toNat < 0x7f then quoteChar q c else escapeCode c
  String.ofList ('b' :: q :: body ++ [q])

end Text
end Vitrine
