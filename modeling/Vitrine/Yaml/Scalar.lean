import Vitrine.Text.Digit
import Vitrine.Yaml.Cursor

/-!
The texts of scalars: plain, between quotes, and as blocks of lines.
-/
namespace Vitrine
namespace Yaml

/-! ## Plain -/

/-- The marks that end a plain scalar inside brackets. -/
def isFlowMark (c : Char) : Bool :=
  c = ',' || c = '?' || c = '[' || c = ']' || c = '\x7b' || c = '\x7d'

/-- Whether a colon in front of these characters ends a plain scalar. -/
def colonEnds (flow : Bool) : List Char → Bool
  | [] => true
  | c :: _ =>
    isTabOrSpace c || isBreak c ||
      (flow && (c = ',' || c = '[' || c = ']' || c = '\x7b' || c = '\x7d'))

/-- The characters of a plain scalar up to the next blank. -/
def plainRun (flow : Bool) : List Char → List Char
  | [] => []
  | c :: cs =>
    if isTabOrSpace c || isBreak c || (c = ':' && colonEnds flow cs) || (flow && isFlowMark c) then
      []
    else c :: plainRun flow cs

/-- Spaces and line ends, up to a mark between documents: the line ends, whether such a mark was
met, and the place behind. -/
def plainBreaks (c : Cursor) : List Char × Bool × Cursor :=
  match _h : c.rest with
  | [] => ([], false, c)
  | ch :: _ =>
    if ch = ' ' then plainBreaks c.step
    else if isBreak ch then
      if c.step.atSeparator then ([], true, c.step)
      else
        let (breaks, met, stop) := plainBreaks c.step
        (breakChar ch :: breaks, met, stop)
    else ([], false, c)
termination_by c.rest.length
decreasing_by all_goals simp [Cursor.rest_step, _h]

/-- What a line end and the line ends behind it become: a single line feed folds into a space. -/
def foldBreaks (first : Char) (others : List Char) : List Char :=
  if first ≠ '\n' then first :: others else if others.isEmpty then [' '] else others

/-- The blanks inside a plain scalar: what they become, whether they hold a line end, and the place
behind them. In front of a mark between documents they become nothing. -/
def plainSpaces (c : Cursor) : List Char × Bool × Cursor :=
  let blanks := c.run (· = ' ')
  let c := c.skip blanks.length
  match c.lineBreak? with
  | none => (blanks, false, c)
  | some (first, c) =>
    if c.atSeparator then ([], true, c)
    else
      let (breaks, met, c) := plainBreaks c
      (if met then [] else foldBreaks first breaks, true, c)

/-- A scalar's text, the place behind it, and whether a line end lies in between. -/
structure Scanned where
  text : List Char
  stop : Cursor
  newLine : Bool

/-- A plain scalar; its later lines are indented at least by `indent`. -/
def plainFrom (flow : Bool) (indent : Int) (c : Cursor) : Scanned :=
  let run := plainRun flow c.rest
  let (spaces, newLine, next) := plainSpaces (c.skip run.length)
  if spaces.isEmpty || next.hasAt 0 (· = '#') || (!flow && (next.column : Int) < indent) then
    ⟨run, next, newLine⟩
  else if (plainRun flow next.rest).isEmpty then ⟨run, next, newLine⟩
  else if _h : next.rest.length < c.rest.length then
    let more := plainFrom flow indent next
    ⟨run ++ spaces ++ more.text, more.stop, more.newLine⟩
  else ⟨run, next, newLine⟩
termination_by c.rest.length

/-! ## Between quotes -/

/-- Line ends with blanks around them; a mark between documents must not stand there. -/
def quotedBreaks (c : Cursor) : Except Trouble (List Char × Cursor) :=
  if c.atSeparator then .error .invalid
  else
    let c' := c.skipRun isTabOrSpace
    match c'.lineBreak? with
    | none => .ok ([], c')
    | some (b, next) =>
      if _h : next.rest.length < c.rest.length then do
        let (breaks, stop) ← quotedBreaks next
        return (b :: breaks, stop)
      else .error .invalid
termination_by c.rest.length

/-- The blanks inside a quoted scalar; around line ends they are left out. -/
def quotedSpaces (c : Cursor) : Except Trouble (List Char × Cursor) := do
  let blanks := c.run isTabOrSpace
  let c := c.skip blanks.length
  match c.lineBreak? with
  | none => if c.atEnd then .error .invalid else return (blanks, c)
  | some (first, c) =>
    let (breaks, stop) ← quotedBreaks c
    return (foldBreaks first breaks, stop)

/-- What the characters behind a backslash stand for. -/
def escapeTable : List (Char × Nat) := [
  ('0', 0), ('a', 7), ('b', 8), ('t', 9), ('\t', 9), ('n', 10), ('v', 11), ('f', 12), ('r', 13),
  ('e', 27), (' ', 32), ('"', 34), ('\\', 92), ('/', 47), ('N', 0x85), ('_', 0xa0), ('L', 0x2028),
  ('P', 0x2029)]

/-- How many hexadecimal digits follow a letter behind a backslash. -/
def codeWidth? : Char → Option Nat
  | 'x' => some 2
  | 'u' => some 4
  | 'U' => some 8
  | _ => none

def hexValue? (c : Char) : Option Nat :=
  if c.toNat < 128 then (Text.digitValue? c).or (letterValue? c) else none
where
  letterValue? (c : Char) : Option Nat :=
    if 'a' ≤ c ∧ c ≤ 'f' then some (c.toNat - 87)
    else if 'A' ≤ c ∧ c ≤ 'F' then some (c.toNat - 55) else none

/-- The number that hexadecimal digits denote. -/
def hexNumber? (cs : List Char) : Option Nat :=
  cs.foldl (fun n c => n.bind fun n => (hexValue? c).map (n * 16 + ·)) (some 0)

/-- The character of a code; codes beyond all characters are faults. -/
def charOfCode (n : Nat) : Except Trouble Char :=
  if 0x7fffffff < n then .error (.fault .overflow)
  else if 0x10ffff < n then .error (.fault .value)
  else if 0xd800 ≤ n && n < 0xe000 then .ok (Char.ofNat 0xfffd)
  else .ok (Char.ofNat n)

/-- What follows a backslash. -/
def escapeFrom (c : Cursor) : Except Trouble (List Char × Cursor) :=
  match c.look 0 with
  | none => .error .invalid
  | some ch =>
    match escapeTable.lookup ch with
    | some n => .ok ([Char.ofNat n], c.step)
    | none =>
      match codeWidth? ch with
      | some width => do
        let digits := c.step.rest.take width
        match hexNumber? digits with
        | some n =>
          if digits.length = width then return ([← charOfCode n], c.step.skip width)
          else .error .invalid
        | none => .error .invalid
      | none => if isBreak ch then quotedBreaks c.step else .error .invalid

/-- Whether a character stands for itself between quotes. -/
def isOrdinary (c : Char) : Bool :=
  !(isTabOrSpace c || isBreak c || c = '"' || c = '\'' || c = '\\')

/-- What stands between quotes at a character that is not ordinary: its text and the place behind
it, or the place behind the quote that ends the scalar. -/
def quotedPart (double : Bool) (ch : Char) (c : Cursor) :
    Except Trouble (Option (List Char) × Cursor) := do
  if isTabOrSpace ch || isBreak ch then
    let (text, next) ← quotedSpaces c
    return (some text, next)
  else if double && ch = '\\' then
    let (text, next) ← escapeFrom c.step
    return (some text, next)
  else if double && ch = '"' then return (none, c.step)
  else if !double && ch = '\'' then
    if c.hasAt 1 (· = '\'') then return (some ['\''], c.skip 2) else return (none, c.step)
  else return (some [ch], c.step)

/-- A scalar between quotes, from behind the first quote to behind the last. -/
def quotedFrom (double : Bool) (c : Cursor) : Except Trouble (List Char × Cursor) :=
  let ordinary := c.run isOrdinary
  let special := c.skip ordinary.length
  match special.look 0 with
  | none => .error .invalid
  | some ch => do
    match ← quotedPart double ch special with
    | (none, stop) => return (ordinary, stop)
    | (some text, next) =>
      if _h : next.rest.length < c.rest.length then
        let (more, stop) ← quotedFrom double next
        return (ordinary ++ text ++ more, stop)
      else .error .invalid
termination_by c.rest.length

/-! ## Blocks -/

/-- What becomes of the line ends behind the last line of a block. -/
inductive Chomping where
  | strip | clip | keep
  deriving DecidableEq, Repr

def chompingOf? : Char → Option Chomping
  | '-' => some .strip
  | '+' => some .keep
  | _ => none

/-- A digit from one to nine. -/
def indentDigit? (c : Char) : Option Nat :=
  if '0' ≤ c ∧ c ≤ '9' then some (c.toNat - 48) else none

/-- An indentation that a header gives must not be zero. -/
def checkedIndent (n : Nat) : Except Trouble (Option Nat) :=
  if n = 0 then .error .invalid else .ok (some n)

/-- The header of a block: how line ends at its end are treated, and how far it is indented. -/
def blockHeader (c : Cursor) : Except Trouble (Chomping × Option Nat × Cursor) := do
  let (chomping, increment, c) ← match (c.look 0).bind chompingOf? with
    | some chomping =>
      match (c.look 1).bind indentDigit? with
      | some n => do pure (chomping, ← checkedIndent n, c.skip 2)
      | none => pure (chomping, none, c.step)
    | none =>
      match (c.look 0).bind indentDigit? with
      | some n => do
        let increment ← checkedIndent n
        match (c.look 1).bind chompingOf? with
        | some chomping => pure (chomping, increment, c.skip 2)
        | none => pure (.clip, increment, c.step)
      | none => pure (.clip, none, c)
  if !c.spaceAt 0 then .error .invalid
  else
    let c := c.skipSpaces.skipComment
    if !c.lineEndAt 0 then .error .invalid
    else
      return (chomping, increment, ((c.lineBreak?).map (·.2)).getD c)

/-- Spaces up to a column. -/
def skipTo (column : Nat) (c : Cursor) : Cursor :=
  c.skip (min (column - c.column) (c.run (· = ' ')).length)

/-- The empty lines here, with at most `indent` spaces in front of their ends. -/
def blockBreaks (indent : Nat) (c : Cursor) : List Char × Cursor :=
  let c' := skipTo indent c
  match c'.lineBreak? with
  | none => ([], c')
  | some (b, next) =>
    if _h : next.rest.length < c.rest.length then
      let (breaks, stop) := blockBreaks indent next
      (b :: breaks, stop)
    else ([], c')
termination_by c.rest.length

/-- The empty lines in front of a block, and the greatest column that a space reaches there. -/
def leadingBreaks (widest : Nat) (c : Cursor) : List Char × Nat × Cursor :=
  match _h : c.rest with
  | [] => ([], widest, c)
  | ch :: _ =>
    if ch = ' ' then leadingBreaks (max widest c.step.column) c.step
    else if isBreak ch then
      let (breaks, widest, stop) := leadingBreaks widest c.step
      (breakChar ch :: breaks, widest, stop)
    else ([], widest, c)
termination_by c.rest.length
decreasing_by all_goals simp [Cursor.rest_step, _h]

/-- The lines of a block: their text, the last line end, the empty lines behind it and the place
there. -/
structure BlockLines where
  text : List Char
  lastBreak : List Char
  breaks : List Char
  stop : Cursor

/-- Whether the line here belongs to a block. -/
def inBlock (indent : Nat) (c : Cursor) : Bool := c.column = indent && !c.atEnd

def blockLines (folded : Bool) (indent : Nat) (breaks : List Char) (c : Cursor) : BlockLines :=
  if inBlock indent c then
    let line := c.run fun ch => !isBreak ch
    let ended := c.skip line.length
    let (lastBreak, next) := match ended.lineBreak? with
      | some (b, next) => ([b], next)
      | none => ([], ended)
    let (later, next) := blockBreaks indent next
    if inBlock indent next then
      let folds := folded && lastBreak == ['\n'] && !(c.hasAt 0 isTabOrSpace) &&
        !(next.hasAt 0 isTabOrSpace)
      let glue := if folds then (if later.isEmpty then [' '] else []) else lastBreak
      if _h : next.rest.length < c.rest.length then
        let more := blockLines folded indent later next
        { more with text := breaks ++ line ++ glue ++ more.text }
      else ⟨breaks ++ line, lastBreak, later, next⟩
    else ⟨breaks ++ line, lastBreak, later, next⟩
  else ⟨[], [], breaks, c⟩
termination_by c.rest.length

/-- A block inside a collection indented by `parent`, from behind its mark. -/
def blockFrom (folded : Bool) (parent : Int) (c : Cursor) :
    Except Trouble (List Char × Cursor) := do
  let (chomping, increment, c) ← blockHeader c
  let least := (max (parent + 1) 1).toNat
  let lines := match increment with
    | none =>
      let (breaks, widest, c) := leadingBreaks 0 c
      blockLines folded (max least widest) breaks c
    | some n =>
      let (breaks, c) := blockBreaks (least + n - 1) c
      blockLines folded (least + n - 1) breaks c
  let tail := match chomping with
    | .strip => []
    | .clip => lines.lastBreak
    | .keep => lines.lastBreak ++ lines.breaks
  return (lines.text ++ tail, lines.stop)

end Yaml
end Vitrine
