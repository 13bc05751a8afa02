import Vitrine.Fault

/-!
A command line cut into words. Quotes keep blanks together; a backslash takes the next character as
it is, between double quotes only in front of a double quote or a backslash.
-/
namespace Vitrine
namespace Text

/-- What the characters being read stand in. -/
inductive Quoting where
  | none | single | double
  deriving DecidableEq, Repr

def separatesCommandWords (c : Char) : Bool := c = ' ' || c = '\t' || c = '\r' || c = '\n'

/-- The words of the rest of a command line. The word being read is `word`, if one has begun. -/
def wordsFrom (quoting : Quoting) (word : Option (List Char)) :
    List Char → Except Fault (List String)
  | [] =>
    match quoting with
    | .none => .ok ((word.map String.ofList).toList)
    | _ => .error .value
  | c :: cs =>
    let grown (d : Char) : Option (List Char) := some (word.getD [] ++ [d])
    match quoting with
    | .none =>
      if separatesCommandWords c then do
        let words ← wordsFrom .none .none cs
        return (word.map String.ofList).toList ++ words
      else if c = '\'' then wordsFrom .single (some (word.getD [])) cs
      else if c = '"' then wordsFrom .double (some (word.getD [])) cs
      else if c = '\\' then
        match cs with
        | [] => .error .value
        | d :: cs => wordsFrom .none (grown d) cs
      else wordsFrom .none (grown c) cs
    | .single =>
      if c = '\'' then wordsFrom .none word cs else wordsFrom .single (grown c) cs
    | .double =>
      if c = '"' then wordsFrom .none word cs
      else if c = '\\' then
        match cs with
        | [] => .error .value
        | d :: cs =>
          if d = '"' || d = '\\' then wordsFrom .double (grown d) cs
          else wordsFrom .double (some (word.getD [] ++ ['\\', d])) cs
      else wordsFrom .double (grown c) cs

/-- The words of a command line; an open quote or a backslash at the end is a fault. -/
def words (s : String) : Except Fault (List String) := wordsFrom .none .none s.toList

end Text
end Vitrine
