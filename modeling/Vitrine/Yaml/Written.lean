import Vitrine.Text.Quoted
import Vitrine.Yaml.Cursor
import Vitrine.Yaml.Tag

/-!
How a text is written as a scalar: plain if it then reads as a text, between single quotes if
ASCII suffices, and else between double quotes with escapes. Long lines are folded at spaces.
-/
namespace Vitrine
namespace Yaml

/-- The column behind which a line is folded, and the indent of the lines that follow. -/
def foldColumn : Nat := 80

def foldIndent : Nat := 2

def foldedBreak : List Char := '\n' :: List.replicate foldIndent ' '

def isLineFeedOr (p : Char → Bool) (c : Char) : Bool := c = '\n' || p c

/-- Whether a character can stand as it is in a scalar without escapes. -/
def isUnescaped (c : Char) : Bool := ' ' ≤ c ∧ c ≤ '~'

/-- The characters that separate words for indicators. -/
def separatesWords (c : Char) : Bool :=
  c = Char.ofNat 0 || c = ' ' || c = '\t' || c = '\r' || c = '\n' || isBreak c

/-- Whether no character, or one that separates words, comes next. -/
def atWordEnd : List Char → Bool
  | [] => true
  | c :: _ => separatesWords c

/-- The characters that no plain scalar begins with. -/
def leadingMarks : List Char := "#,[]\x7b\x7d&*!|>'\"%@\x60".toList

/-- Whether the first character, in front of others, is a mark. -/
def beginsWithMark : List Char → Bool
  | [] => false
  | c :: cs => leadingMarks.contains c || ((c = '?' || c = ':' || c = '-') && atWordEnd cs)

/-- Whether a mark stands behind the first character, which is given. -/
def marksInside (before : Char) : List Char → Bool
  | [] => false
  | c :: cs =>
    (c = ':' && atWordEnd cs) || (c = '#' && separatesWords before) || marksInside c cs

def hasMarks (cs : List Char) : Bool :=
  "---".toList.isPrefixOf cs || "...".toList.isPrefixOf cs || beginsWithMark cs ||
    match cs with
    | [] => false
    | c :: rest => marksInside c rest

/-- Whether a space stands next to a line feed, on the side that `p` and `q` say. -/
def hasPair (p q : Char) : List Char → Bool
  | c :: d :: cs => (c = p && d = q) || hasPair p q (d :: cs)
  | _ => false

/-- Whether a text can be written without quotes. -/
def allowsPlain (cs : List Char) : Bool :=
  cs.all isUnescaped && cs.head? != some ' ' && cs.getLast? != some ' ' && !hasMarks cs

/-- Whether a text can be written between single quotes. -/
def allowsSingle (cs : List Char) : Bool :=
  cs.all (isLineFeedOr isUnescaped) && !hasPair ' ' '\n' cs && !hasPair '\n' ' ' cs

/-- The characters cut into runs of spaces, of line feeds and of all others. -/
def runs : List Char → List (List Char)
  | [] => []
  | c :: cs =>
    match runs cs with
    | (d :: run) :: more =>
      if (c = ' ') = (d = ' ') && (c = '\n') = (d = '\n') then (c :: d :: run) :: more
      else [c] :: (d :: run) :: more
    | more => [c] :: more

/-- The runs of a scalar from a column on. The first and the last run are not folded. -/
def writeRuns (first : Bool) (column : Nat) : List (List Char) → List Char
  | [] => []
  | run :: more =>
    match run with
    | ' ' :: spaces =>
      if spaces.isEmpty && foldColumn < column && !first && !more.isEmpty then
        foldedBreak ++ writeRuns false foldIndent more
      else run ++ writeRuns false (column + run.length) more
    | '\n' :: _ => '\n' :: run ++ List.replicate foldIndent ' ' ++ writeRuns false foldIndent more
    | _ => run ++ writeRuns false (column + run.length) more

def doubleQuotes (cs : List Char) : List Char :=
  cs.flatMap fun c => if c = '\'' then ['\'', '\''] else [c]

/-- The letters that stand for characters behind a backslash. -/
def escapeLetters : List (Nat × Char) := [
  (0, '0'), (7, 'a'), (8, 'b'), (9, 't'), (0xa, 'n'), (0xb, 'v'), (0xc, 'f'), (0xd, 'r'),
  (0x1b, 'e'), (0x22, '"'), (0x5c, '\\'), (0x85, 'N'), (0xa0, '_'), (0x2028, 'L'), (0x2029, 'P')]

def upperHex (width n : Nat) : List Char := (Text.hexDigits width n).map Char.toUpper

def escaped (c : Char) : List Char :=
  match escapeLetters.lookup c.toNat with
  | some letter => ['\\', letter]
  | none =>
    if c.toNat ≤ 0xff then '\\' :: 'x' :: upperHex 2 c.toNat
    else if c.toNat ≤ 0xffff then '\\' :: 'u' :: upperHex 4 c.toNat
    else '\\' :: 'U' :: upperHex 8 c.toNat

def needsEscape (c : Char) : Bool := !isUnescaped c || c = '"' || c = '\\'

/-- The characters between double quotes, from a column on. `pending` was passed over and not yet
written; a line is folded behind a backslash, in front of the next character. -/
def writeEscaped (first : Bool) (column : Nat) (pending : List Char) : List Char → List Char
  | [] => pending
  | c :: cs =>
    let inside := !first && !cs.isEmpty
    if needsEscape c then
      let text := pending ++ escaped c
      let column := column + text.length
      if inside && foldColumn + 1 < column then
        text ++ ('\\' :: foldedBreak) ++
          (if cs.head? = some ' ' then '\\' :: writeEscaped false (foldIndent + 1) [] cs
            else writeEscaped false foldIndent [] cs)
      else text ++ writeEscaped false column [] cs
    else if inside && (c = ' ' || pending.isEmpty) && foldColumn < column + pending.length then
      pending ++ ('\\' :: foldedBreak) ++
        (if c = ' ' then '\\' :: writeEscaped false (foldIndent + 1) [c] cs
          else writeEscaped false foldIndent [c] cs)
    else writeEscaped false column (pending ++ [c]) cs

/-- A scalar that begins in a column. -/
def scalarChars (column : Nat) (s : String) : List Char :=
  let cs := s.toList
  if allowsPlain cs && Tag.ofPlain s = .str then writeRuns true column (runs cs)
  else if allowsSingle cs then
    '\'' :: writeRuns true (column + 1) (runs (doubleQuotes cs)) ++ ['\'']
  else '"' :: writeEscaped true (column + 1) [] cs ++ ['"']

/-- An entry of a mapping that gives a text a name. -/
def textEntry (name s : String) : String :=
  name ++ ": " ++ String.ofList (scalarChars (name.length + 2) s) ++ "\n"

end Yaml
end Vitrine
