import Vitrine.Decimal.Reader
import Vitrine.Script.Number
import Vitrine.Text.Case
import Vitrine.Yaml.Node

/-!
The value that a document holds. Nodes are built level by level, so of several nodes that cannot be
built the outermost one decides how reading fails.
-/
namespace Vitrine
namespace Yaml

/-! ## Scalars -/

def truthWords : List (String × Bool) := [
  ("yes", true), ("no", false), ("true", true), ("false", false), ("on", true), ("off", false)]

def withoutBars (text : String) : List Char := text.toList.filter (· ≠ '_')

/-- The sum of digits to the base sixty, the last one first. -/
def sumSixtieths : List Int → Int
  | [] => 0
  | d :: ds => d + 60 * sumSixtieths ds

/-- The integer between blanks in a base. -/
def digitsIn? (base : Nat) (cs : List Char) : Option Int :=
  Decimal.intIn? base (Text.stripChars cs)

/-- An integer without its sign. -/
def magnitude? (cs : List Char) : Option Int :=
  match cs with
  | ['0'] => some 0
  | '0' :: 'b' :: ds => digitsIn? 2 ds
  | '0' :: 'x' :: ds => digitsIn? 16 ds
  | '0' :: _ => digitsIn? 8 cs
  | cs =>
    if cs.contains ':' then
      ((Text.splitOn ':' cs).mapM (digitsIn? 10)).map fun ds => sumSixtieths ds.reverse
    else digitsIn? 10 cs

def isNegative (cs : List Char) : Bool := cs.head? = some '-'

def intOf (text : String) : Except Fault Int :=
  let cs := withoutBars text
  if (dropSign cs).isEmpty then .error .index
  else
    match magnitude? (dropSign cs) with
    | some n => .ok (if isNegative cs then -n else n)
    | none => .error .value

/-- The sum of digits to the base sixty as doubles, the last digit first. -/
def sumFloats (base : Int) (sum : Float) : List Float → Except Fault Float
  | [] => .ok sum
  | d :: ds =>
    match Decimal.ofInt? base with
    | some b => sumFloats (base * 60) (sum + d * b) ds
    | none => .error .overflow

/-- The double between blanks. -/
def doubleIn? (cs : List Char) : Option Float := Decimal.float? (Text.stripChars cs)

/-- A double without its sign. -/
def floatMagnitude (cs : List Char) : Except Fault Float :=
  if cs = ".inf".toList then .ok Decimal.infinity
  else if cs = ".nan".toList then .ok Decimal.notANumber
  else if cs.contains ':' then
    match (Text.splitOn ':' cs).mapM doubleIn? with
    | some ds => sumFloats 1 0 ds.reverse
    | none => .error .value
  else
    match doubleIn? cs with
    | some x => .ok x
    | none => .error .value

def floatOf (text : String) : Except Fault Float :=
  let cs := (Text.lower (String.ofList (withoutBars text))).toList
  if cs.isEmpty then .error .index
  else (floatMagnitude (dropSign cs)).map fun x => if isNegative cs then -x else x

/-- The value of a character in base sixty-four. -/
def sextet? (c : Char) : Option Nat :=
  if 'A' ≤ c ∧ c ≤ 'Z' then some (c.toNat - 65)
  else if 'a' ≤ c ∧ c ≤ 'z' then some (c.toNat - 71)
  else if '0' ≤ c ∧ c ≤ '9' then some (c.toNat + 4)
  else if c = '+' then some 62
  else if c = '/' then some 63
  else none

/-- The bytes of a text in base sixty-four; `place` counts the characters of the group so far,
`left` holds their bits that no byte has yet, and `pads` counts the padding. Other characters are
passed over. -/
def bytesOf? (place left pads : Nat) : List Char → Option (List UInt8)
  | [] => if place = 0 then some [] else none
  | c :: cs =>
    if c = '=' then
      if 2 ≤ place then
        if 4 ≤ place + pads + 1 then some [] else bytesOf? place left (pads + 1) cs
      else bytesOf? place left pads cs
    else
      match sextet? c with
      | none => bytesOf? place left pads cs
      | some n =>
        match place with
        | 0 => bytesOf? 1 n 0 cs
        | 1 => (bytesOf? 2 (n % 16) 0 cs).map (UInt8.ofNat (left * 4 + n / 16) :: ·)
        | 2 => (bytesOf? 3 (n % 4) 0 cs).map (UInt8.ofNat (left * 16 + n / 4) :: ·)
        | _ => (bytesOf? 0 0 0 cs).map (UInt8.ofNat (left * 64 + n) :: ·)

def binaryOf (text : String) : Except Trouble Data :=
  if text.toList.all (·.toNat < 128) then
    match bytesOf? 0 0 0 text.toList with
    | some bytes => .ok (.bytes () bytes)
    | none => .error .invalid
  else .error .invalid

def Clock.isValid (t : Clock) : Bool := t.hour < 24 && t.minute < 60 && t.second < 60

/-- A date or a date with a time; dates and times that do not exist are faults. -/
def timestampOf (text : String) : Except Fault Data :=
  match timestamp? text.toList with
  | none => .error .attribute
  | some ⟨date, _, none⟩ => if date.isValid then .ok (.date () date) else .error .value
  | some ⟨date, _, some (clock, offset)⟩ =>
    if date.isValid && clock.isValid && offset.all (fun o => o.natAbs < 86400) then
      .ok (.datetime () ⟨date, clock.hour, clock.minute, clock.second, clock.microsecond, offset⟩)
    else .error .value

def ofFault {α : Type} : Except Fault α → Except Trouble α
  | .ok a => .ok a
  | .error f => .error (.fault f)

/-- The value of a scalar with a tag. -/
def scalarValue (tag : Tag) (text : String) : Except Trouble Data :=
  match tag with
  | .null => .ok .null
  | .bool =>
    match truthWords.lookup (Text.lower text) with
    | some b => .ok (.bool b)
    | none => .error (.fault .key)
  | .int => (ofFault (intOf text)).map .int
  | .float => (ofFault (floatOf text)).map .float
  | .binary => binaryOf text
  | .timestamp => ofFault (timestampOf text)
  | .str => .ok (.str text)
  | .omap | .pairs | .set | .seq | .map | .merge | .value | .other => .error .invalid

/-! ## Merging -/

def Node.tag : Node → Tag
  | .scalar t _ | .sequence t _ | .mapping t _ => t

/-- A key; one that names a default value is a text. -/
def asKey : Node → Node
  | .scalar .value text => .scalar .str text
  | n => n

mutual

/-- The entries of a mapping in two parts: those that it merges into itself, and its own. -/
def mergedEntries : List (Node × Node) → Option (List (Node × Node) × List (Node × Node))
  | [] => some ([], [])
  | (key, value) :: es =>
    if key.tag = .merge then do
      let more ← entriesToMerge value
      let (merged, own) ← mergedEntries es
      return (more ++ merged, own)
    else do
      let (merged, own) ← mergedEntries es
      return (merged, (asKey key, value) :: own)

/-- The entries that a node brings into another mapping: a mapping's own, or those of several, the
last of them first. -/
def entriesToMerge : Node → Option (List (Node × Node))
  | .mapping _ entries => do
    let (merged, own) ← mergedEntries entries
    return merged ++ own
  | .sequence _ items => mappingsToMerge items
  | .scalar .. => none

def mappingsToMerge : List Node → Option (List (Node × Node))
  | [] => some []
  | .mapping _ entries :: nodes => do
    let (merged, own) ← mergedEntries entries
    return (← mappingsToMerge nodes) ++ (merged ++ own)
  | _ => none

end

mutual

/-- The node with all mappings merged: merged entries come first, so that own ones win. -/
def Node.merge : Node → Option Node
  | .scalar tag text => some (.scalar tag text)
  | .sequence tag items => do return .sequence tag (← mergeItems items)
  | .mapping tag entries => do
    let entries ← mergeEntries entries
    if tag = .map || tag = .set then
      let (merged, own) ← mergedEntries entries
      return .mapping tag (merged ++ own)
    else return .mapping tag entries

def mergeItems : List Node → Option (List Node)
  | [] => some []
  | n :: ns => do
    let n ← n.merge
    return n :: (← mergeItems ns)

def mergeEntries : List (Node × Node) → Option (List (Node × Node))
  | [] => some []
  | (key, value) :: es => do
    let key ← key.merge
    let value ← value.merge
    return (key, value) :: (← mergeEntries es)

end

/-! ## Building -/

/-- What was built, or why it could not be and at which depth. -/
inductive Built (α : Type) where
  | done (a : α)
  | failed (depth : Nat) (t : Trouble)

namespace Built

variable {α β : Type}

def ofExcept (depth : Nat) : Except Trouble α → Built α
  | .ok a => done a
  | .error t => failed depth t

/-- Joins two parts; of two failures the outer one counts, or else the first. -/
def join {γ : Type} (f : α → β → γ) : Built α → Built β → Built γ
  | done a, done b => done (f a b)
  | failed d t, done _ | done _, failed d t => failed d t
  | failed d t, failed e u => if e < d then failed e u else failed d t

def andThen (a : Built α) (f : α → Built β) : Built β :=
  match a with
  | done a => f a
  | failed d t => failed d t

end Built

/-- A value as a key; collections cannot be keys. -/
def keyOf? : Data → Option Key
  | .null => some .null
  | .bool b => some (.bool b)
  | .int n => some (.int n)
  | .float x => some (.float x)
  | .str s => some (.str s)
  | .date _ d => some (.date d)
  | .datetime _ t => some (.datetime t)
  | .bytes _ bs => some (.bytes bs)
  | _ => none

mutual

/-- The text of a node that has to be a scalar; a mapping may hold it as its default value. -/
def scalarText? : Node → Option String
  | .scalar _ text => some text
  | .mapping _ entries => defaultText? entries
  | .sequence .. => none

def defaultText? : List (Node × Node) → Option String
  | [] => none
  | (key, value) :: es => if key.tag = .value then scalarText? value else defaultText? es

end

def scalarAt (depth : Nat) (tag : Tag) (text : Option String) : Built Data :=
  Built.ofExcept depth <|
    match text with
    | some text => scalarValue tag text
    | none => .error .invalid

/-- The entries with their keys, none of which may be a collection. -/
def withKey (depth : Nat) (key : Data) : Built Key :=
  match keyOf? key with
  | some k => .done k
  | none => .failed depth .invalid

mutual

/-- The value of a node at a depth. -/
def build (depth : Nat) : Node → Built Data
  | .scalar tag text => scalarAt depth tag (some text)
  | .sequence .seq items => (buildItems (depth + 1) items).andThen fun vs => .done (.array () vs)
  | .sequence .omap items | .sequence .pairs items =>
    (buildPairs (depth + 1) items).andThen fun vs => .done (.array () vs)
  | .sequence .. => .failed depth .invalid
  | .mapping .map entries =>
    (buildEntries (depth + 1) entries).andThen fun es => .done (.object () (Entries.ofList es))
  | .mapping .set entries =>
    (buildEntries (depth + 1) entries).andThen fun es => .done (.set () (Key.dedup (es.map (·.1))))
  | .mapping tag entries => scalarAt depth tag (defaultText? entries)

def buildItems (depth : Nat) : List Node → Built (List Data)
  | [] => .done []
  | n :: ns => (build depth n).join List.cons (buildItems depth ns)

/-- The entries of an ordered mapping, each of which is a mapping of one entry. -/
def buildPairs (depth : Nat) : List Node → Built (List Data)
  | [] => .done []
  | .mapping _ [(key, value)] :: ns =>
    ((build depth key).join .pair (build depth value)).join List.cons (buildPairs depth ns)
  | _ => .failed depth .invalid

def buildEntries (depth : Nat) : List (Node × Node) → Built (List (Key × Data))
  | [] => .done []
  | (key, value) :: es =>
    (((build depth key).andThen (withKey depth)).join Prod.mk (build depth value)).join List.cons
      (buildEntries depth es)

end

/-- The value of the document that a text is; a text without a document is null. -/
def read (text : String) : Except Trouble Data := do
  match ← document (← tokenize text) with
  | none => return .null
  | some node =>
    match node.merge with
    | none => .error .invalid
    | some node =>
      match build 0 node with
      | .done v => return v
      | .failed _ t => .error t

end Yaml
end Vitrine
