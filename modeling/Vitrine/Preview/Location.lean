import Vitrine.Files.Path

/-!
Where in a preview file something is wrong.
-/
namespace Vitrine
namespace Preview

structure Location where
  file : Option Path
  keyPath : Option String

namespace Location

def nowhere : Location := ⟨none, none⟩

/-- The key path, unless it is empty. -/
def keyPath? (l : Location) : Option String := l.keyPath.filter (· ≠ "")

/-- The file and the key path, as far as they are known. -/
def text (l : Location) : String :=
  match l.file, l.keyPath? with
  | some file, some key => file.text ++ " at " ++ key
  | some file, none => file.text
  | none, some key => "at " ++ key
  | none, none => ""

/-- Whether the location says anything. -/
def isKnown (l : Location) : Bool := l.file.isSome || l.keyPath?.isSome

/-- A message with the location in front of it. -/
def lead (l : Location) (message : String) : String :=
  if l.isKnown then l.text ++ ": " ++ message else message

end Location

end Preview
end Vitrine
