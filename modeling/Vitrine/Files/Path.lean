import Vitrine.Decimal.Layout
import Vitrine.Text.Blank

/-!
Paths. A path is absolute or relative and has parts; empty parts and single dots are left out,
while double dots stay where they are.
-/
namespace Vitrine

/-- What a path starts from. Two slashes in front are a root of their own. -/
inductive Root where
  | relative | absolute | doubled
  deriving DecidableEq, Repr

structure Path where
  root : Root
  parts : List String
  deriving DecidableEq, Repr

namespace Path

/-- The pieces of a text between slashes. -/
def pieces (text : String) : List String :=
  (Text.splitOn '/' text.toList).map String.ofList

def rootOf : List Char → Root
  | '/' :: '/' :: '/' :: _ => .absolute
  | '/' :: '/' :: _ => .doubled
  | '/' :: _ => .absolute
  | _ => .relative

def ofText (text : String) : Path :=
  ⟨rootOf text.toList, (pieces text).filter fun p => p ≠ "" && p ≠ "."⟩

def rootText : Root → String
  | .relative => ""
  | .absolute => "/"
  | .doubled => "//"

def joinParts : List String → String
  | [] => ""
  | [p] => p
  | p :: ps => p ++ "/" ++ joinParts ps

/-- The text of a path; the path without parts is a dot. -/
def text (p : Path) : String :=
  if p.root = .relative && p.parts.isEmpty then "." else rootText p.root ++ joinParts p.parts

def isAbsolute (p : Path) : Bool := p.root ≠ .relative

/-- The path below a directory; an absolute path is below none. -/
def join (directory p : Path) : Path :=
  if p.isAbsolute then p else ⟨directory.root, directory.parts ++ p.parts⟩

/-- A path with one more part. -/
def child (p : Path) (name : String) : Path := ⟨p.root, p.parts ++ [name]⟩

/-- The directory that a path lies in. -/
def parent (p : Path) : Path := ⟨p.root, p.parts.dropLast⟩

/-- The last part. -/
def name (p : Path) : String := (p.parts.getLast?).getD ""

/-- A text cut at its last dot, the dot belonging to the second half. -/
def splitAtLastDot (cs : List Char) : Option (List Char × List Char) :=
  let behind := (cs.reverse.takeWhile (· ≠ '.')).reverse
  if behind.length < cs.length then
    let k := cs.length - behind.length - 1
    some (cs.take k, cs.drop k)
  else none

/-- The name in two halves: in front of its last dot and from there on. A dot at the beginning or
the end of the name cuts nothing off. -/
def stemAndSuffix (p : Path) : String × String :=
  match splitAtLastDot p.name.toList with
  | some (stem, suffix) =>
    if stem.isEmpty || suffix.length ≤ 1 then (p.name, "")
    else (String.ofList stem, String.ofList suffix)
  | none => (p.name, "")

def stem (p : Path) : String := p.stemAndSuffix.1

def suffix (p : Path) : String := p.stemAndSuffix.2

/-- Whether a path can be a path of a file system, whose names hold no NUL. -/
def isSound (p : Path) : Bool := p.parts.all fun name => !name.toList.contains (Char.ofNat 0)

end Path
end Vitrine
