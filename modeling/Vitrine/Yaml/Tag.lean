import Vitrine.Calendar
import Vitrine.Text.Blank
import Vitrine.Yaml.Scalar

/-!
Tags say what a node is. A plain scalar without a tag has the tag that its text shows: a number, a
date, a truth value, null, or else a text.
-/
namespace Vitrine
namespace Yaml

inductive Tag where
  | null | bool | int | float | binary | timestamp
  | omap | pairs | set | str | seq | map
  /-- The key that merges other mappings into its own. -/
  | merge
  /-- The key of a default value. -/
  | value
  | other
  deriving DecidableEq, Repr

/-- What the names of the standard tags begin with. -/
def standardLead : String := "tag:yaml.org,2002:"

def standardTags : List (String × Tag) := [
  ("null", .null), ("bool", .bool), ("int", .int), ("float", .float), ("binary", .binary),
  ("timestamp", .timestamp), ("omap", .omap), ("pairs", .pairs), ("set", .set), ("str", .str),
  ("seq", .seq), ("map", .map), ("merge", .merge), ("value", .value)]

def Tag.ofName (name : String) : Tag :=
  ((standardTags.find? fun t => standardLead ++ t.1 == name).map (·.2)).getD .other

/-! ## The shapes of plain scalars -/

def isDigit (c : Char) : Bool := '0' ≤ c ∧ c ≤ '9'

def isDigitOrBar (c : Char) : Bool := isDigit c || c = '_'

def dropSign : List Char → List Char
  | '+' :: cs => cs
  | '-' :: cs => cs
  | cs => cs

/-- A run of digits at the front, of a length between two bounds: its value and the rest. -/
def digitsWithin? (least most : Nat) (cs : List Char) : Option (Nat × List Char) :=
  let run := cs.takeWhile isDigit
  if least ≤ run.length && run.length ≤ most then
    some (run.foldl (fun n d => n * 10 + (d.toNat - 48)) 0, cs.drop run.length)
  else none

/-- Whether digits denote a part of a number to the base sixty. -/
def isSixtieth : List Char → Bool
  | [a] => isDigit a
  | [a, b] => '0' ≤ a && a ≤ '5' && isDigit b
  | _ => false

/-- The rest behind parts to the base sixty, each behind a colon. -/
def dropSixtieths : Nat → List Char → Option (List Char)
  | 0, _ => none
  | n + 1, ':' :: cs =>
    let run := cs.takeWhile isDigit
    if isSixtieth run then
      match cs.drop run.length with
      | ':' :: rest => dropSixtieths n (':' :: rest)
      | rest => some rest
    else none
  | _, _ => none

/-- The rest behind parts to the base sixty, of which there is at least one. -/
def behindSixtieths? (cs : List Char) : Option (List Char) := dropSixtieths cs.length cs

def isIntText (cs : List Char) : Bool :=
  match dropSign cs with
  | ['0'] => true
  | '0' :: 'b' :: ds => !ds.isEmpty && ds.all fun c => c = '0' || c = '1' || c = '_'
  | '0' :: 'x' :: ds => !ds.isEmpty && ds.all fun c => (hexValue? c).isSome || c = '_'
  | '0' :: ds => !ds.isEmpty && ds.all fun c => ('0' ≤ c ∧ c ≤ '7') || c = '_'
  | c :: cs =>
    isDigit c &&
      (let rest := cs.dropWhile isDigitOrBar
       rest.isEmpty || behindSixtieths? rest == some [])
  | [] => false

/-- Whether an exponent, which has a sign, or nothing follows. -/
def isExponentOrEnd : List Char → Bool
  | [] => true
  | e :: s :: ds => (e = 'e' || e = 'E') && (s = '+' || s = '-') && !ds.isEmpty && ds.all isDigit
  | _ => false

def infinityWords : List String := [".inf", ".Inf", ".INF"]

def nanWords : List String := [".nan", ".NaN", ".NAN"]

/-- Whether a number without its sign has a point. -/
def isPointed : List Char → Bool
  | c :: cs =>
    isDigit c &&
      (let rest := cs.dropWhile isDigitOrBar
       match rest with
       | '.' :: fraction => isExponentOrEnd (fraction.dropWhile isDigitOrBar)
       | _ =>
         match behindSixtieths? rest with
         | some ('.' :: fraction) => fraction.all isDigitOrBar
         | _ => false)
  | [] => false

def isFloatText (cs : List Char) : Bool :=
  let whole := String.ofList cs
  nanWords.contains whole || infinityWords.contains (String.ofList (dropSign cs)) ||
    isPointed (dropSign cs) ||
    match cs with
    | '.' :: c :: ds => isDigit c && isExponentOrEnd (ds.dropWhile isDigitOrBar)
    | _ => false

/-! ## Dates and times -/

/-- The time behind a date, without its zone. -/
structure Clock where
  hour : Nat
  minute : Nat
  second : Nat
  microsecond : Nat

structure Timestamp where
  date : Date
  /-- Whether month and day have two digits. -/
  full : Bool
  time : Option (Clock × Option Int)

/-- The first six digits of a fraction. -/
def microseconds (digits : List Char) : Nat :=
  ((digits ++ List.replicate 6 '0').take 6).foldl (fun n d => n * 10 + (d.toNat - 48)) 0

/-- A zone as its offset in seconds, up to the end of the text. -/
def zone? : List Char → Option (Option Int)
  | [] => some none
  | cs =>
    match cs.dropWhile isTabOrSpace with
    | ['Z'] => some (some 0)
    | sign :: cs =>
      if sign = '+' || sign = '-' then do
        let (hours, cs) ← digitsWithin? 1 2 cs
        let minutes ← match cs with
          | [] => some 0
          | ':' :: cs =>
            match digitsWithin? 2 2 cs with
            | some (n, []) => some n
            | _ => none
          | _ => none
        let offset : Int := (hours * 60 + minutes) * 60
        return some (if sign = '-' then -offset else offset)
      else none
    | [] => none

def clock? (cs : List Char) : Option (Clock × Option Int) := do
  let (hour, cs) ← digitsWithin? 1 2 cs
  let cs ← if cs.head? = some ':' then some cs.tail else none
  let (minute, cs) ← digitsWithin? 2 2 cs
  let cs ← if cs.head? = some ':' then some cs.tail else none
  let (second, cs) ← digitsWithin? 2 2 cs
  let fraction := if cs.head? = some '.' then cs.tail.takeWhile isDigit else []
  let cs := if cs.head? = some '.' then cs.tail.drop fraction.length else cs
  let offset ← zone? cs
  return (⟨hour, minute, second, microseconds fraction⟩, offset)

def timestamp? (cs : List Char) : Option Timestamp := do
  let (year, cs) ← digitsWithin? 4 4 cs
  let cs ← if cs.head? = some '-' then some cs.tail else none
  let (month, cs') ← digitsWithin? 1 2 cs
  let monthWidth := cs.length - cs'.length
  let cs ← if cs'.head? = some '-' then some cs'.tail else none
  let (day, cs') ← digitsWithin? 1 2 cs
  let full := monthWidth = 2 && cs.length - cs'.length = 2
  match cs' with
  | [] => return ⟨⟨year, month, day⟩, full, none⟩
  | c :: rest =>
    if c = 'T' || c = 't' then return ⟨⟨year, month, day⟩, full, some (← clock? rest)⟩
    else if isTabOrSpace c then
      return ⟨⟨year, month, day⟩, full, some (← clock? (rest.dropWhile isTabOrSpace))⟩
    else none

/-- Whether a plain scalar is a date, with two digits for month and day, or a date with a time. -/
def isTimestampText (cs : List Char) : Bool :=
  (timestamp? cs).any fun t => t.full || t.time.isSome

/-! ## Words -/

def boolWords : List String := [
  "yes", "Yes", "YES", "no", "No", "NO", "true", "True", "TRUE", "false", "False", "FALSE", "on",
  "On", "ON", "off", "Off", "OFF"]

def nullWords : List String := ["~", "null", "Null", "NULL", ""]

/-- The words for marks of other tokens; they are no scalars. -/
def markWords : List String := ["!", "&", "*"]

/-- The tag that the text of a plain scalar shows. -/
def Tag.ofPlain (text : String) : Tag :=
  let cs := text.toList
  if boolWords.contains text then .bool
  else if nullWords.contains text then .null
  else if isFloatText cs then .float
  else if isIntText cs then .int
  else if isTimestampText cs then .timestamp
  else if text = "<<" then .merge
  else if text = "=" then .value
  else if markWords.contains text then .other
  else .str

end Yaml
end Vitrine
