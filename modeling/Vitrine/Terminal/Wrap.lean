import Vitrine.Terminal.Width
import Vitrine.Text.Blank

/-!
Text in lines of a limited width. Words go on the next line where they do not fit; a word that is
wider than a line is cut.
-/
namespace Vitrine
namespace Terminal

open Text (isBlank)

/-- The controls that would move the cursor or ring: they are left out. -/
def isMovement (c : Char) : Bool := [0x7, 0x8, 0xb, 0xc, 0xd].contains c.toNat

/-- The distance of tab stops. -/
def tabStop : Nat := 8

/-- Blanks in the place of tabs, up to the next tab stop. -/
def expandTabs (column : Nat) : List Char → List Char
  | [] => []
  | '\t' :: cs =>
    let next := (column / tabStop + 1) * tabStop
    List.replicate (next - column) ' ' ++ expandTabs next cs
  | c :: cs => c :: expandTabs (column + charWidth c) cs

/-- A text cut into words, each with the blanks behind it; blanks at the beginning belong to the
first word. `word` is the word being read, and `open_` tells whether it can still grow. -/
def wordsFrom (word : List Char) (open_ : Bool) : List Char → List (List Char)
  | [] => [word]
  | c :: cs =>
    if isBlank c then wordsFrom (word ++ [c]) (word.all isBlank) cs
    else if open_ then wordsFrom (word ++ [c]) true cs
    else word :: wordsFrom [c] true cs

def wordsOf (cs : List Char) : List (List Char) := wordsFrom [] true cs

/-- A text without the blanks at its end. -/
def trimEnd (cs : List Char) : List Char := (Text.dropBlanks cs.reverse).reverse

/-- A text cut into pieces that fit in a line; `piece` is the piece being filled. -/
def piecesFrom (limit : Nat) (piece : List Char) : List Char → List (List Char)
  | [] => [piece]
  | c :: cs =>
    if !piece.isEmpty && limit < width piece + charWidth c then piece :: piecesFrom limit [c] cs
    else piecesFrom limit (piece ++ [c]) cs

def piecesOf (limit : Nat) (cs : List Char) : List (List Char) := piecesFrom limit [] cs

/-- Lines that are filled with words, the last one first. -/
structure Filling where
  line : List Char
  earlier : List (List Char)

namespace Filling

def nextLine (f : Filling) (cs : List Char) : Filling :=
  ⟨cs, if f.line.isEmpty then f.earlier else f.line :: f.earlier⟩

/-- Adds a word on the line if it fits there, and else on new lines. -/
def add (limit : Nat) (f : Filling) (word : List Char) : Filling :=
  let bare := width (trimEnd word)
  if width f.line + bare ≤ limit then { f with line := f.line ++ word }
  else if limit < bare then (piecesOf limit word).foldl nextLine f
  else f.nextLine word

def lines (f : Filling) : List (List Char) := (f.line :: f.earlier).reverse

end Filling

/-- A line without blanks at its end that it has no room for. -/
def cropBlanks (limit : Nat) (line : List Char) : List Char :=
  let blanks := line.length - (trimEnd line).length
  line.take (line.length - min blanks (line.length - limit))

/-- As much of a line as fits, marks on the last character included; a wide character at the edge
becomes a blank. -/
def cutTo : Nat → List Char → List Char
  | _, [] => []
  | room, c :: cs =>
    if charWidth c ≤ room then c :: cutTo (room - charWidth c) cs
    else if room = 0 then []
    else [' ']

/-- What is done about a line that is too wide. -/
inductive Overflow where
  /-- It goes on in further lines. -/
  | fold
  /-- It ends in three dots. -/
  | ellipsis
  deriving DecidableEq, Repr

/-- A line that fits. -/
def fit (limit : Nat) (overflow : Overflow) (line : List Char) : List Char :=
  let line := cropBlanks limit line
  if width line ≤ limit then line
  else
    match overflow with
    | .fold => cutTo limit line
    | .ellipsis => cutTo (limit - 1) line ++ ['…']

/-- One line in lines that fit. -/
def wrapLine (limit : Nat) (overflow : Overflow) (line : List Char) : List (List Char) :=
  let line := if line.contains '\t' then expandTabs 0 line else line
  let lines := match overflow with
    | .fold => ((wordsOf line).foldl (Filling.add limit) ⟨[], []⟩).lines
    | .ellipsis => [line]
  lines.map (fit limit overflow)

/-- A text in lines that fit. -/
def wrap (limit : Nat) (overflow : Overflow) (text : List Char) : List (List Char) :=
  (Text.splitOn '\n' (text.filter fun c => !isMovement c)).flatMap (wrapLine limit overflow)

/-- The width of the terminal. -/
def columns : Nat := 200

/-- A text as it is shown, with a line feed after each line. -/
def lay (text : String) : String :=
  String.ofList ((wrap columns .fold text.toList).flatMap fun line => line ++ ['\n'])

end Terminal
end Vitrine
