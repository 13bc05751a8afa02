import Vitrine.Terminal.Markup
import Vitrine.Terminal.Wrap

/-!
Tables with two columns, drawn with lines and rounded corners. Cells in the first column stay on one
line; those in the second go on in further lines where the terminal is too narrow.
-/
namespace Vitrine
namespace Terminal

/-- The characters besides the line feed that end a line when a cell is measured. -/
def endsLine (c : Char) : Bool :=
  let n := c.toNat
  (0xa ≤ n && n ≤ 0xd) || (0x1c ≤ n && n ≤ 0x1e) || n = 0x85 || n = 0x2028 || n = 0x2029

/-- The width of the widest line of a text; `column` is the width of the line being measured. -/
def widestFrom (column : Nat) : List Char → Nat
  | [] => column
  | c :: cs =>
    if endsLine c then max column (widestFrom 0 cs) else widestFrom (column + charWidth c) cs

/-- A cell as it is measured and drawn. -/
def cellOf (text : String) : Except Fault (List Char) :=
  (withoutTags text).map fun cs => cs.filter fun c => !isMovement c

/-- Blanks beside the text of a cell, on both sides together. -/
def padding : Nat := 2

/-- The columns that a table has for its cells; lines take the others. -/
def room : Nat := columns - 3

/-- The width that a column would have. -/
def naturalWidth (cells : List (List Char)) : Nat :=
  min room (((cells.map (widestFrom 0)).foldl max 0) + padding)

/-- The lines of a cell in a column, all of one width. -/
def cellLines (columnWidth : Nat) (overflow : Overflow) (cell : List Char) : List (List Char) :=
  let limit := columnWidth - padding
  (wrap limit overflow cell).map fun line =>
    ' ' :: line ++ List.replicate (limit - width line) ' ' ++ [' ']

/-- A line across the table. -/
def rule (left middle right : Char) (widths : Nat × Nat) : List Char :=
  left :: List.replicate widths.1 '─' ++ middle :: List.replicate widths.2 '─' ++ [right]

/-- The lines of a row. -/
def rowLines (widths : Nat × Nat) (row : List Char × List Char) : List (List Char) :=
  let first := cellLines widths.1 .ellipsis row.1
  let second := cellLines widths.2 .fold row.2
  let line (k : Nat) : List Char :=
    '│' :: (first[k]?).getD (List.replicate widths.1 ' ') ++
      '│' :: (second[k]?).getD (List.replicate widths.2 ' ') ++ ['│']
  (List.range (max first.length second.length)).map line

/-- The lines of a table with a heading over each column. -/
def tableLines (heading : List Char × List Char) (rows : List (List Char × List Char)) :
    List (List Char) :=
  let first := naturalWidth (heading.1 :: rows.map (·.1))
  let second := naturalWidth (heading.2 :: rows.map (·.2))
  let widths := (first, min second (room - first))
  [rule '╭' '┬' '╮' widths] ++ rowLines widths heading ++ [rule '├' '┼' '┤' widths] ++
    rows.flatMap (rowLines widths) ++ [rule '╰' '┴' '╯' widths]

/-- A table as it is shown. -/
def table (heading : String × String) (rows : List (String × String)) : Except Fault String := do
  let cellsOf (row : String × String) : Except Fault (List Char × List Char) := do
    return (← cellOf row.1, ← cellOf row.2)
  let heading ← cellsOf heading
  let rows ← rows.mapM cellsOf
  return String.ofList ((tableLines heading rows).flatMap fun line => line ++ ['\n'])

end Terminal
end Vitrine
