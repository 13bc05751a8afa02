import Vitrine.Fault
import Vitrine.Text.Blank
import Vitrine.Text.Case

/-!
Markup in the cells of a table: tags in square brackets, which are not shown. A tag is a bracket
with a small letter, `#`, `/` or `@` behind it, up to the next closing bracket. An odd number of
backslashes in front of a tag makes it text. A tag that closes has to have been opened.
-/
namespace Vitrine
namespace Terminal

/-- A piece of a text with markup. -/
inductive Piece where
  | plain (cs : List Char)
  | openTag (name : List Char)
  | closeTag (name : List Char)
  deriving DecidableEq, Repr

def beginsTag (c : Char) : Bool := ('a' ≤ c && c ≤ 'z') || c = '#' || c = '/' || c = '@'

/-- The inside of the tag behind an opening bracket, and what follows the tag. -/
def tagInside : List Char → Option (List Char × List Char)
  | [] => none
  | c :: cs =>
    let inside := cs.takeWhile fun d => d ≠ '[' && d ≠ ']'
    match beginsTag c, cs.drop inside.length with
    | true, ']' :: rest => some (c :: inside, rest)
    | _, _ => none

/-- A tag, from what stands between its brackets; what follows an equals sign is no part of its
name. -/
def tagOf (inside : List Char) : Piece :=
  match inside.takeWhile (· ≠ '=') with
  | '/' :: name => .closeTag (Text.stripChars name)
  | name => .openTag (Text.stripChars name)

/-- Outside of tags a backslash in front of a bracket is left out. -/
def unescape : List Char → List Char
  | [] => []
  | '\\' :: '[' :: cs => '[' :: unescape cs
  | c :: cs => c :: unescape cs

/-- The pieces of a text. The count bounds their number; `text` is the piece being read. -/
def piecesWithin : Nat → List Char → List Char → List Piece
  | 0, text, cs => [.plain (unescape (text ++ cs))]
  | _, text, [] => [.plain (unescape text)]
  | n + 1, text, c :: cs =>
    let slashes := (c :: cs).takeWhile (· = '\\')
    let behind := (c :: cs).drop slashes.length
    match behind with
    | '[' :: after =>
      match tagInside after with
      | some (inside, rest) =>
        let kept := List.replicate (slashes.length / 2) '\\'
        .plain (unescape text) :: .plain kept ::
          (if slashes.length % 2 = 1 then .plain ('[' :: inside ++ [']']) else tagOf inside) ::
          piecesWithin n [] rest
      | none => piecesWithin n (text ++ slashes ++ ['[']) after
    | d :: after =>
      if slashes.isEmpty then piecesWithin n (text ++ [d]) after
      else piecesWithin n (text ++ slashes) behind
    | [] => [.plain (unescape (text ++ slashes))]

/-- Whether two tags have the same name. -/
def sameTag (a b : List Char) : Bool :=
  Text.lower (String.ofList a) = Text.lower (String.ofList b)

/-- What is shown of the pieces. `opened` holds the tags that are open, the last one first. -/
def shownOf (opened : List (List Char)) : List Piece → Except Fault (List Char)
  | [] => .ok []
  | .plain cs :: ps => (shownOf opened ps).map (cs ++ ·)
  | .openTag name :: ps => shownOf (name :: opened) ps
  | .closeTag name :: ps =>
    if name.isEmpty then
      match opened with
      | [] => .error .markup
      | _ :: opened => shownOf opened ps
    else if opened.any (sameTag name) then shownOf (opened.eraseP (sameTag name)) ps
    else .error .markup

/-- A text as it is shown, without its tags. -/
def withoutTags (text : String) : Except Fault (List Char) :=
  shownOf [] (piecesWithin text.length [] text.toList)

end Terminal
end Vitrine
