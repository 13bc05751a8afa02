import Vitrine.Text.CaseTable

/-!
Upper and lower case. The case of a character does not depend on its neighbours, apart from the
Greek capital sigma, whose lower case is written in its final form at the end of a word.
-/
namespace Vitrine
namespace Text

def shiftCase (runs : List CaseRun) (c : Char) : Char :=
  match runs.find? fun r => r.has c.toNat with
  | some r => Char.ofNat (c.toNat + r.shift).toNat
  | none => c

def upperChar (c : Char) : List Char :=
  if c.toNat < 128 then [c.toUpper]
  else
    match upperExpansions.lookup c.toNat with
    | some cs => cs.map Char.ofNat
    | none => [shiftCase upperRuns c]

def upper (s : String) : String := String.ofList (s.toList.flatMap upperChar)

/-- A cased character that does not let the case of its neighbours through. -/
def isCased (c : Char) : Bool :=
  if c.toNat < 128 then c.isAlpha else casedRanges.has c.toNat

def isCaseIgnorable (c : Char) : Bool :=
  if c.toNat < 128 then c = '\'' || c = '.' || c = ':' || c = '^' || c = '`'
  else caseIgnorableRanges.has c.toNat

/-- Whether the nearest character that is not transparent to case is cased. -/
def meetsCased (cs : List Char) : Bool :=
  match cs.dropWhile isCaseIgnorable with
  | [] => false
  | c :: _ => isCased c

def capitalSigma : Char := Char.ofNat 0x3a3

/-- The lower case of a text; `before` holds the characters in front of it, nearest first. -/
def lowerAfter (before : List Char) : List Char → List Char
  | [] => []
  | c :: cs =>
    let low :=
      if c = capitalSigma then
        [Char.ofNat (if meetsCased before && !meetsCased cs then 0x3c2 else 0x3c3)]
      else if c.toNat < 128 then [c.toLower]
      else if c.toNat = 0x130 then ['i', Char.ofNat 0x307]
      else [shiftCase lowerRuns c]
    low ++ lowerAfter (c :: before) cs

def lower (s : String) : String := String.ofList (lowerAfter [] s.toList)

end Text
end Vitrine
