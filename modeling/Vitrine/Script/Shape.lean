import Vitrine.Script.Lexer
import Vitrine.Text.Blank

/-!
The shape of function texts. A text that begins like a function is kept even if its syntax is
beyond the grammar; its parameters are then taken from the text alone.
-/
namespace Vitrine
namespace Script

/-- The rest behind a word at the front. -/
def afterWord? (word : String) (cs : List Char) : Option (List Char) :=
  if word.toList.isPrefixOf cs then some (cs.drop word.length) else none

/-- The rest behind `async` and the blanks that follow it. -/
def afterAsync? (cs : List Char) : Option (List Char) :=
  (afterWord? "async" cs).bind fun
    | c :: rest => if Text.isBlank c then some (Text.dropBlanks rest) else none
    | [] => none

/-- The rest behind the word `function`, which must not go on. -/
def afterFunction? (cs : List Char) : Option (List Char) :=
  (afterWord? "function" cs).bind fun
    | [] => some []
    | c :: rest => if Text.isWordChar c then none else some (c :: rest)

/-- Whether an arrow follows, possibly behind blanks. -/
def arrowFollows (cs : List Char) : Bool := "=>".toList.isPrefixOf (Text.dropBlanks cs)

/-- The text between parentheses at the front, and the rest; none if another parenthesis opens
inside. -/
def parenthesized? : List Char → Option (List Char × List Char)
  | '(' :: cs =>
    let inner := cs.takeWhile fun c => c ≠ '(' && c ≠ ')'
    match cs.drop inner.length with
    | ')' :: rest => some (inner, rest)
    | _ => none
  | _ => none

/-- The name at the front, whose later characters satisfy `more`, and the rest. -/
def nameAtFront? (more : Char → Bool) : List Char → Option (List Char × List Char)
  | c :: cs =>
    if isNameStart c then
      let tail := cs.takeWhile more
      some (c :: tail, cs.drop tail.length)
    else none
  | [] => none

def beginsFunction (cs : List Char) : Bool :=
  (afterFunction? cs).isSome ||
    (parenthesized? cs).any (fun p => arrowFollows p.2) ||
    (nameAtFront? isNameChar cs).any (fun p => arrowFollows p.2)

/-- Whether a text begins like a function. -/
def isFunctionSource (source : String) : Bool :=
  let cs := Text.dropBlanks source.toList
  (afterAsync? cs).any beginsFunction || beginsFunction cs

/-- The text between the first parentheses of a function with a parameter list. -/
def parameterList? (cs : List Char) : Option (List Char) :=
  let behindWord := (afterFunction? cs).bind fun rest =>
    parenthesized? (rest.dropWhile (· ≠ '('))
  match behindWord with
  | some p => some p.1
  | none => (parenthesized? cs).map (·.1)

/-- The parameters that the text of a function seems to have. -/
def functionParams (source : String) : List String :=
  let cs := Text.dropBlanks source.toList
  let list :=
    match (afterAsync? cs).bind parameterList? with
    | some l => some l
    | none => parameterList? cs
  match list with
  | some l =>
    ((Text.splitOn ',' l).map Text.stripChars).filterMap fun p =>
      if p.isEmpty then none else some (String.ofList p)
  | none =>
    match nameAtFront? (fun c => Text.isWordChar c || c = '$') cs with
    | some (name, rest) => if arrowFollows rest then [String.ofList name] else []
    | none => []

end Script
end Vitrine
