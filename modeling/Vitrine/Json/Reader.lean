import Vitrine.Decimal.Reader
import Vitrine.Json

/-!
Reading JSON. The first fault of a text decides its error, which names the line and the column
where it lies. Of members with the same name the last value counts, at the place of the first.
-/
namespace Vitrine
namespace Json

inductive ReadError where
  /-- What is wrong, and where. -/
  | malformed (what : String) (pos : Nat)
  /-- A word for a double that is no number, where only numbers are allowed. -/
  | constant (name : String)
  /-- An integer with more digits than are read. -/
  | tooLong (digits : Nat)

/-- The number of line feeds in front of a position, and the column there, counted from one. -/
def lineColumn (doc : List Char) (pos : Nat) : Nat × Nat :=
  let before := doc.take pos
  let line := before.count '\n'
  (line + 1, (before.reverse.takeWhile (· ≠ '\n')).length + 1)

def ReadError.message (doc : List Char) : ReadError → String
  | .malformed what pos =>
    let (line, column) := lineColumn doc pos
    what ++ ": line " ++ Decimal.intText line ++ " column " ++ Decimal.intText column ++
      " (char " ++ Decimal.intText pos ++ ")"
  | .constant name => "Unexpected token " ++ name
  | .tooLong digits =>
    "Exceeds the limit (" ++ Decimal.intText Decimal.digitLimit ++
      " digits) for integer string conversion: value has " ++ Decimal.intText digits ++
      " digits; use sys.set_int_max_str_digits() to increase the limit"

/-- What was read from `cs`, the position behind it and the characters there. -/
structure Read (α : Type) (cs : List Char) where
  value : α
  pos : Nat
  rest : List Char
  shorter : rest.length < cs.length

/-- What was read by something that may be empty. -/
structure Skim (α : Type) (cs : List Char) where
  value : α
  pos : Nat
  rest : List Char
  noLonger : rest.length ≤ cs.length

def isSpace (c : Char) : Bool := c = ' ' || c = '\t' || c = '\n' || c = '\r'

theorem Skim.noLonger_cons {α : Type} {cs : List Char} (s : Skim α cs) (c : Char) :
    s.rest.length ≤ (c :: cs).length := Nat.le_succ_of_le s.noLonger

def skipSpace (pos : Nat) : (cs : List Char) → Skim Unit cs
  | [] => ⟨(), pos, [], Nat.le_refl _⟩
  | c :: cs =>
    if isSpace c then
      let s := skipSpace (pos + 1) cs
      ⟨(), s.pos, s.rest, s.noLonger_cons c⟩
    else ⟨(), pos, c :: cs, Nat.le_refl _⟩

/-- The value of four hexadecimal digits. -/
def hex4? (a b c d : Char) : Option Nat :=
  let digit (c : Char) : Option Nat := (Decimal.digitOf? c).bind fun n =>
    if n < 16 then some n else none
  (digit a).bind fun a => (digit b).bind fun b => (digit c).bind fun c => (digit d).bind fun d =>
    some (((a * 16 + b) * 16 + c) * 16 + d)

/-- The character that a backslash in front of `c` stands for. -/
def unescape? (c : Char) : Option Char :=
  match c with
  | '"' => some '"'
  | '\\' => some '\\'
  | '/' => some '/'
  | 'b' => some (Char.ofNat 8)
  | 'f' => some (Char.ofNat 12)
  | 'n' => some '\n'
  | 'r' => some '\r'
  | 't' => some '\t'
  | _ => none

def isHighUnit (n : Nat) : Bool := 0xd800 ≤ n && n < 0xdc00

def isLowUnit (n : Nat) : Bool := 0xdc00 ≤ n && n < 0xe000

/-- The character of a code unit; a lone half of a pair becomes the replacement character. -/
def ofUnit (n : Nat) : Char :=
  if isHighUnit n || isLowUnit n then Char.ofNat 0xfffd else Char.ofNat n

/-- The text of code units, in which two halves of a pair make one character. -/
def ofUnits : List Nat → List Char
  | [] => []
  | [n] => [ofUnit n]
  | high :: low :: ns =>
    if isHighUnit high && isLowUnit low then
      Char.ofNat (0x10000 + (high - 0xd800) * 0x400 + (low - 0xdc00)) :: ofUnits ns
    else ofUnit high :: ofUnits (low :: ns)

/-- The code units of a string up to its closing quote. The string began at `start`. -/
def readUnits (start pos : Nat) : (cs : List Char) → Except ReadError (Read (List Nat) cs)
  | [] => .error (.malformed "Unterminated string starting at" start)
  | '"' :: cs => .ok ⟨[], pos + 1, cs, by simp⟩
  | ['\\'] => .error (.malformed "Unterminated string starting at" start)
  | '\\' :: 'u' :: a :: b :: c :: d :: x :: cs =>
    match hex4? a b c d with
    | none => .error (.malformed "Invalid \\uXXXX escape" (pos + 1))
    | some n => do
      let r ← readUnits start (pos + 6) (x :: cs)
      have := r.shorter
      return ⟨n :: r.value, r.pos, r.rest, by simp at *; omega⟩
  | '\\' :: 'u' :: _ => .error (.malformed "Invalid \\uXXXX escape" (pos + 1))
  | '\\' :: e :: cs =>
    match unescape? e with
    | none => .error (.malformed "Invalid \\escape" pos)
    | some c => do
      let r ← readUnits start (pos + 2) cs
      have := r.shorter
      return ⟨c.toNat :: r.value, r.pos, r.rest, by simp at *; omega⟩
  | c :: cs =>
    if c.toNat ≤ 0x1f then .error (.malformed "Invalid control character at" pos)
    else do
      let r ← readUnits start (pos + 1) cs
      have := r.shorter
      return ⟨c.toNat :: r.value, r.pos, r.rest, by simp at *; omega⟩

/-- The string whose opening quote is behind us. -/
def readString (start pos : Nat) (cs : List Char) : Except ReadError (Read String cs) := do
  let r ← readUnits start pos cs
  return ⟨String.ofList (ofUnits r.value), r.pos, r.rest, r.shorter⟩

/-! ## Numbers -/

def digits (cs : List Char) : List Char := cs.takeWhile Text.isAsciiDigit

/-- The digits of the whole part: a zero alone, or digits that do not begin with one. -/
def wholeDigits : List Char → List Char
  | '0' :: _ => ['0']
  | cs => digits cs

def fractionChars : List Char → List Char
  | '.' :: cs => if (digits cs).isEmpty then [] else '.' :: digits cs
  | _ => []

def exponentChars : List Char → List Char
  | e :: s :: cs =>
    if e = 'e' || e = 'E' then
      if s = '+' || s = '-' then
        if (digits cs).isEmpty then [] else e :: s :: digits cs
      else if (digits (s :: cs)).isEmpty then [] else e :: digits (s :: cs)
    else []
  | _ => []

/-- The characters of a number at the front, and whether it is an integer. -/
def numberChars (cs : List Char) : List Char × Bool :=
  let sign := match cs with
    | '-' :: _ => ['-']
    | _ => []
  let whole := wholeDigits (cs.drop sign.length)
  if whole.isEmpty then ([], true)
  else
    let fraction := fractionChars (cs.drop (sign.length + whole.length))
    let exponent := exponentChars (cs.drop (sign.length + whole.length + fraction.length))
    (sign ++ whole ++ fraction ++ exponent, fraction.isEmpty && exponent.isEmpty)

def ofNumber (text : List Char) (whole : Bool) : Except ReadError Json :=
  if whole then
    match Decimal.int? text with
    | some n => .ok (.int n)
    | none => .error (.tooLong (text.filter Text.isAsciiDigit).length)
  else
    match Decimal.float? text with
    | some x => .ok (.float x)
    | none => .error (.tooLong 0)

/-- The words that stand for values by themselves; the last three are doubles that are no numbers.
-/
def wordTable : List (String × Json) := [
  ("null", .null), ("true", .bool true), ("false", .bool false)]

def constantTable : List (String × Json) := [
  ("NaN", .float Decimal.notANumber), ("Infinity", .float Decimal.infinity),
  ("-Infinity", .float Decimal.negativeInfinity)]

def wordAtFront? (table : List (String × Json)) (cs : List Char) : Option (String × Json) :=
  table.find? fun w => w.1.toList.isPrefixOf cs

/-- A word or a number at the front. -/
def readAtom (constants : Bool) (pos : Nat) (cs : List Char) :
    Except ReadError (Read Json cs) :=
  let take (text : List Char) (j : Json) : Except ReadError (Read Json cs) :=
    if h : (cs.drop text.length).length < cs.length then
      .ok ⟨j, pos + text.length, cs.drop text.length, h⟩
    else .error (.malformed "Expecting value" pos)
  match wordAtFront? wordTable cs with
  | some (word, j) => take word.toList j
  | none =>
    match wordAtFront? constantTable cs with
    | some (word, j) => if constants then take word.toList j else .error (.constant word)
    | none => do
      let (text, whole) := numberChars cs
      if text.isEmpty then .error (.malformed "Expecting value" pos)
      else take text (← ofNumber text whole)

/-! ## Values -/

/-- Members with one set: a member of the same name keeps its place. -/
def setMember (name : String) (j : Json) : List (String × Json) → List (String × Json)
  | [] => [(name, j)]
  | (n, v) :: ms => if n = name then (n, j) :: ms else (n, v) :: setMember name j ms

def collectMembers (members : List (String × Json)) : List (String × Json) :=
  members.foldl (fun ms m => setMember m.1 m.2 ms) []

/-- Reads a character that has to stand next. -/
def readMark (mark : Char) (what : String) (pos : Nat) :
    (cs : List Char) → Except ReadError (Read Unit cs)
  | [] => .error (.malformed what pos)
  | c :: cs => if c = mark then .ok ⟨(), pos + 1, cs, by simp⟩ else .error (.malformed what pos)

mutual

def readValue (constants : Bool) (pos : Nat) (cs : List Char) :
    Except ReadError (Read Json cs) :=
  match cs with
  | [] => .error (.malformed "Expecting value" pos)
  | c :: rest =>
    if c = '"' then do
      let r ← readString pos (pos + 1) rest
      have := r.shorter
      return ⟨.str r.value, r.pos, r.rest, by simp; omega⟩
    else if c = '[' then do
      let r ← readItems constants (pos + 1) rest
      have := r.shorter
      return ⟨.array r.value, r.pos, r.rest, by simp; omega⟩
    else if c = '\x7b' then do
      let r ← readMembers constants (pos + 1) rest
      have := r.shorter
      return ⟨.object (collectMembers r.value), r.pos, r.rest, by simp; omega⟩
    else readAtom constants pos (c :: rest)
termination_by 4 * cs.length

/-- The items of an array and its closing bracket. -/
def readItems (constants : Bool) (pos : Nat) (cs : List Char) :
    Except ReadError (Read (List Json) cs) := do
  let ⟨_, pos, rest, _⟩ := skipSpace pos cs
  match h : rest with
  | ']' :: after => return ⟨[], pos + 1, after, by subst h; simp at *; omega⟩
  | _ =>
    let items ← readMoreItems constants pos rest
    have := items.shorter
    return ⟨items.value, items.pos, items.rest, by omega⟩
termination_by 4 * cs.length + 3

/-- At least one item, and the closing bracket. -/
def readMoreItems (constants : Bool) (pos : Nat) (cs : List Char) :
    Except ReadError (Read (List Json) cs) := do
  let first ← readValue constants pos cs
  have := first.shorter
  let ⟨_, pos, rest, _⟩ := skipSpace first.pos first.rest
  match h : rest with
  | ']' :: after => return ⟨[first.value], pos + 1, after, by subst h; simp at *; omega⟩
  | ',' :: after =>
    let ⟨_, pos, next, _⟩ := skipSpace (pos + 1) after
    let others ← readMoreItems constants pos next
    have := others.shorter
    return ⟨first.value :: others.value, others.pos, others.rest, by subst h; simp at *; omega⟩
  | _ => .error (.malformed "Expecting ',' delimiter" pos)
termination_by 4 * cs.length + 2
decreasing_by all_goals (try subst h; simp only [List.length_cons] at *); omega

/-- The members of an object and its closing brace. -/
def readMembers (constants : Bool) (pos : Nat) (cs : List Char) :
    Except ReadError (Read (List (String × Json)) cs) := do
  let ⟨_, pos, rest, _⟩ := skipSpace pos cs
  match h : rest with
  | '\x7d' :: after => return ⟨[], pos + 1, after, by subst h; simp at *; omega⟩
  | _ =>
    let members ← readMoreMembers constants pos rest
    have := members.shorter
    return ⟨members.value, members.pos, members.rest, by omega⟩
termination_by 4 * cs.length + 3

/-- At least one member, and the closing brace. -/
def readMoreMembers (constants : Bool) (pos : Nat) (cs : List Char) :
    Except ReadError (Read (List (String × Json)) cs) := do
  let opening ← readMark '"' "Expecting property name enclosed in double quotes" pos cs
  have := opening.shorter
  let name ← readString pos opening.pos opening.rest
  have := name.shorter
  let ⟨_, pos, rest, _⟩ := skipSpace name.pos name.rest
  let colon ← readMark ':' "Expecting ':' delimiter" pos rest
  have := colon.shorter
  let ⟨_, pos, rest, _⟩ := skipSpace colon.pos colon.rest
  let value ← readValue constants pos rest
  have := value.shorter
  let ⟨_, pos, rest, _⟩ := skipSpace value.pos value.rest
  match h : rest with
  | '\x7d' :: after =>
    return ⟨[(name.value, value.value)], pos + 1, after, by subst h; simp at *; omega⟩
  | ',' :: after =>
    let ⟨_, pos, next, _⟩ := skipSpace (pos + 1) after
    let others ← readMoreMembers constants pos next
    have := others.shorter
    return ⟨(name.value, value.value) :: others.value, others.pos, others.rest,
      by subst h; simp at *; omega⟩
  | _ => .error (.malformed "Expecting ',' delimiter" pos)
termination_by 4 * cs.length + 2
decreasing_by all_goals (try subst h; simp only [List.length_cons] at *); omega

end

/-- The value of a whole text. -/
def read (constants : Bool) (text : String) : Except ReadError Json := do
  let cs := text.toList
  if cs.head? = some (Char.ofNat 0xfeff) then
    .error (.malformed "Unexpected UTF-8 BOM (decode using utf-8-sig)" 0)
  else
    let start := skipSpace 0 cs
    let value ← readValue constants start.pos start.rest
    let stop := skipSpace value.pos value.rest
    if stop.rest.isEmpty then return value.value
    else .error (.malformed "Extra data" stop.pos)

end Json
end Vitrine
