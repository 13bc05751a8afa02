/-!
White space, and texts without the white space around them.
-/
namespace Vitrine
namespace Text

/-- The characters that separate words: controls, spaces and separators. -/
def isBlank (c : Char) : Bool :=
  let n := c.toNat
  (0x9 ≤ n && n ≤ 0xd) || (0x1c ≤ n && n ≤ 0x20) || n == 0x85 || n == 0xa0 || n == 0x1680 ||
    (0x2000 ≤ n && n ≤ 0x200a) || n == 0x2028 || n == 0x2029 || n == 0x202f || n == 0x205f ||
    n == 0x3000

def dropBlanks (cs : List Char) : List Char := cs.dropWhile isBlank

/-- The text without its leading and trailing blanks. -/
def stripChars (cs : List Char) : List Char :=
  (dropBlanks (dropBlanks cs).reverse).reverse

def strip (s : String) : String := String.ofList (stripChars s.toList)

/-- The pieces between the occurrences of `sep`; there is always one more than there are
occurrences. -/
def splitOn (sep : Char) : List Char → List (List Char)
  | [] => [[]]
  | c :: cs =>
    if c = sep then [] :: splitOn sep cs
    else
      match splitOn sep cs with
      | [] => [[c]]
      | piece :: pieces => (c :: piece) :: pieces

/-- Line ends in all their spellings become line feeds. -/
def unifyLines : List Char → List Char
  | [] => []
  | '\r' :: '\n' :: cs => '\n' :: unifyLines cs
  | '\r' :: cs => '\n' :: unifyLines cs
  | c :: cs => c :: unifyLines cs

/-- Whether `sub` occurs in the text, and the first position where it does. -/
def findFrom (sub : List Char) (start : Nat) : List Char → Option Nat
  | [] => if sub.isEmpty then some start else none
  | c :: cs => if sub.isPrefixOf (c :: cs) then some start else findFrom sub (start + 1) cs

def find? (sub text : String) : Option Nat := findFrom sub.toList 0 text.toList

end Text
end Vitrine
