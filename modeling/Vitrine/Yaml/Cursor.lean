import Vitrine.Fault

/-!
A place in a document: the characters from there on, and how many characters, lines and columns lie
in front of it. Line ends are spelled as single characters; a byte order mark has no width.
-/
namespace Vitrine
namespace Yaml

/-- Why a document cannot be read. -/
inductive Trouble where
  /-- The text is no document. -/
  | invalid
  | fault (f : Fault)
  deriving DecidableEq, Repr

def byteOrderMark : Char := Char.ofNat 0xfeff

def isBreak (c : Char) : Bool :=
  c = '\n' || c = Char.ofNat 0x85 || c = Char.ofNat 0x2028 || c = Char.ofNat 0x2029

/-- What a line end stands for in a text; the separators of lines and paragraphs stay themselves. -/
def breakChar (c : Char) : Char := if c = Char.ofNat 0x85 then '\n' else c

def isTabOrSpace (c : Char) : Bool := c = ' ' || c = '\t'

structure Cursor where
  rest : List Char
  index : Nat
  line : Nat
  column : Nat

namespace Cursor

def start (cs : List Char) : Cursor := ⟨cs, 0, 0, 0⟩

/-- The place behind the next character. -/
def step (c : Cursor) : Cursor :=
  match c.rest with
  | [] => c
  | ch :: rest =>
    if isBreak ch then ⟨rest, c.index + 1, c.line + 1, 0⟩
    else ⟨rest, c.index + 1, c.line, if ch = byteOrderMark then c.column else c.column + 1⟩

theorem rest_step (c : Cursor) : c.step.rest = c.rest.tail := by
  cases h : c.rest with
  | nil => simp [step, h]
  | cons ch rest =>
    simp only [step, h, List.tail_cons]
    split <;> rfl

/-- The place behind some characters. -/
def skip : Nat → Cursor → Cursor
  | 0, c => c
  | n + 1, c => skip n c.step

def look (c : Cursor) (n : Nat) : Option Char := c.rest[n]?

def atEnd (c : Cursor) : Bool := c.rest.isEmpty

/-- Whether the character at a distance is absent or satisfies a condition. -/
def endsAt (c : Cursor) (n : Nat) (p : Char → Bool) : Bool := (c.look n).all p

/-- Whether the character at a distance is there and satisfies a condition. -/
def hasAt (c : Cursor) (n : Nat) (p : Char → Bool) : Bool := (c.look n).any p

/-- The characters up to the first that does not satisfy a condition. -/
def run (p : Char → Bool) (c : Cursor) : List Char := c.rest.takeWhile p

def skipRun (p : Char → Bool) (c : Cursor) : Cursor := c.skip (c.run p).length

def skipSpaces (c : Cursor) : Cursor := c.skipRun (· = ' ')

/-- The rest of the line is passed over. -/
def skipLine (c : Cursor) : Cursor := c.skipRun fun ch => !isBreak ch

/-- A comment, if one begins here, is passed over. -/
def skipComment (c : Cursor) : Cursor := if c.hasAt 0 (· = '#') then c.skipLine else c

/-- The line end here, and the place behind it. -/
def lineBreak? (c : Cursor) : Option (Char × Cursor) :=
  match c.rest with
  | ch :: _ => if isBreak ch then some (breakChar ch, c.step) else none
  | [] => none

/-- Whether a blank, a line end or the end of the text is at a distance. -/
def blankAt (c : Cursor) (n : Nat) : Bool := c.endsAt n fun ch => isTabOrSpace ch || isBreak ch

/-- Whether a space, a line end or the end of the text is at a distance. -/
def spaceAt (c : Cursor) (n : Nat) : Bool := c.endsAt n fun ch => ch = ' ' || isBreak ch

/-- Whether a line end or the end of the text is at a distance. -/
def lineEndAt (c : Cursor) (n : Nat) : Bool := c.endsAt n isBreak

def startsWith (c : Cursor) (mark : String) : Bool := mark.toList.isPrefixOf c.rest

/-- Whether one of the marks between documents stands here. -/
def atSeparator (c : Cursor) : Bool := (c.startsWith "---" || c.startsWith "...") && c.blankAt 3

end Cursor

end Yaml
end Vitrine
