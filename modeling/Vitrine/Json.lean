import Vitrine.Decimal.Layout
import Vitrine.Text.Quoted

/-!
JSON texts: their values, and how they are written.
-/
namespace Vitrine

inductive Json where
  | null
  | bool (b : Bool)
  | int (n : Int)
  | float (x : Float)
  | str (s : String)
  | array (items : List Json)
  | object (members : List (String × Json))

namespace Json

/-- How a JSON text is laid out. -/
structure Style where
  /-- What stands behind an item or member that is not the last one. -/
  itemSep : String
  /-- What stands between a name and its value. -/
  nameSep : String
  /-- Whether characters beyond ASCII are escaped. -/
  ascii : Bool

/-- No blanks, and every character as itself. -/
def compact : Style := ⟨",", ":", false⟩

/-- A blank behind commas and colons, and ASCII only. -/
def spaced : Style := ⟨", ", ": ", true⟩

def escapeUnit (n : Nat) : List Char := '\\' :: 'u' :: Text.hexDigits 4 n

/-- A character by its code units of sixteen bits. -/
def escapeUnits (n : Nat) : List Char :=
  if n < 0x10000 then escapeUnit n
  else escapeUnit (0xd800 + (n - 0x10000) / 0x400) ++ escapeUnit (0xdc00 + (n - 0x10000) % 0x400)

/-- A character inside a JSON string. -/
def escapeChar (ascii : Bool) (c : Char) : List Char :=
  if c = '"' then ['\\', '"']
  else if c = '\\' then ['\\', '\\']
  else if c = '\n' then ['\\', 'n']
  else if c = '\r' then ['\\', 'r']
  else if c = '\t' then ['\\', 't']
  else if c = Char.ofNat 12 then ['\\', 'f']
  else if c = Char.ofNat 8 then ['\\', 'b']
  else if c.toNat < 0x20 then escapeUnit c.toNat
  else if ascii && 0x7e < c.toNat then escapeUnits c.toNat
  else [c]

def quoteChars (ascii : Bool) (cs : List Char) : List Char :=
  '"' :: cs.flatMap (escapeChar ascii) ++ ['"']

/-- A string between double quotes. -/
def quote (ascii : Bool) (s : String) : String := String.ofList (quoteChars ascii s.toList)

/-- The words for doubles that are no numbers. -/
def specials : Decimal.Specials := ⟨"NaN", "Infinity"⟩

mutual

def write (style : Style) : Json → String
  | .null => "null"
  | .bool b => if b then "true" else "false"
  | .int n => Decimal.intText n
  | .float x => Decimal.floatText specials x
  | .str s => quote style.ascii s
  | .array items => "[" ++ writeItems style items ++ "]"
  | .object members => "\x7b" ++ writeMembers style members ++ "\x7d"

def writeItems (style : Style) : List Json → String
  | [] => ""
  | [j] => j.write style
  | j :: js => j.write style ++ style.itemSep ++ writeItems style js

def writeMembers (style : Style) : List (String × Json) → String
  | [] => ""
  | [(name, j)] => quote style.ascii name ++ style.nameSep ++ j.write style
  | (name, j) :: ms =>
    quote style.ascii name ++ style.nameSep ++ j.write style ++ style.itemSep ++
      writeMembers style ms

end

/-- The value of a member; of members with one name, the last. -/
def member? (name : String) : Json → Option Json
  | .object members => members.reverse.lookup name
  | _ => none

end Json
end Vitrine
