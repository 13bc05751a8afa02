import Vitrine.Fault
import Vitrine.Decimal.Reader
import Vitrine.Text.Quoted
import Vitrine.Value

/-!
The text of a value in two forms: as an expression sees it when it becomes a string, and as a
message shows it. Integers beyond the digit limit have neither.
-/
namespace Vitrine

/-- An integer in full, within the digit limit. -/
def writtenInt (n : Int) : Except Fault String :=
  let text := Decimal.intText n
  if Decimal.digitLimit < text.length - (if n < 0 then 1 else 0) then .error .value else .ok text

/-- The message of an integer that is too long to be written. -/
def unwritableMessage : String :=
  "Exceeds the limit (" ++ Decimal.intText Decimal.digitLimit ++
    " digits) for integer string conversion; use sys.set_int_max_str_digits() to increase the limit"

/-- The words for doubles in messages. -/
def messageSpecials : Decimal.Specials := ⟨"nan", "inf"⟩

/-- The words for doubles in strings. -/
def stringSpecials : Decimal.Specials := ⟨"NaN", "Infinity"⟩

/-- A double in messages. -/
def messageFloat (x : Float) : String := Decimal.floatText messageSpecials x

/-- A double as a string: a whole one is written like the integer that it equals. -/
def stringFloat (x : Float) : String :=
  match Decimal.Binary.ofFloat? x with
  | some b => if b.isWhole then Decimal.intText b.floor else Decimal.floatText stringSpecials x
  | none => Decimal.floatText stringSpecials x

def joinWith (sep : String) : List String → String
  | [] => ""
  | [s] => s
  | s :: ss => s ++ sep ++ joinWith sep ss

def dateShown (d : Date) : String :=
  let fields := [d.year, d.month, d.day].map fun n : Nat => Decimal.intText n
  "datetime.date(" ++ joinWith ", " fields ++ ")"

/-- A zone, by its offset from universal time. -/
def zoneShown (offset : Int) : String :=
  if offset = 0 then "datetime.timezone.utc"
  else
    let days := offset / 86400
    let seconds := offset % 86400
    let parts := (if days = 0 then [] else ["days=" ++ Decimal.intText days]) ++
      (if seconds = 0 then [] else ["seconds=" ++ Decimal.intText seconds])
    "datetime.timezone(datetime.timedelta(" ++ joinWith ", " parts ++ "))"

def dateTimeShown (t : DateTime) : String :=
  let fields := [t.date.year, t.date.month, t.date.day, t.hour, t.minute] ++
    (if t.microsecond ≠ 0 then [t.second, t.microsecond]
      else if t.second ≠ 0 then [t.second] else [])
  let zone := match t.offset with
    | none => []
    | some o => ["tzinfo=" ++ zoneShown o]
  let texts := fields.map (fun n : Nat => Decimal.intText n) ++ zone
  "datetime.datetime(" ++ joinWith ", " texts ++ ")"

def boolShown (b : Bool) : String := if b then "True" else "False"

/-- A key in messages. -/
def Key.shown : Key → Except Fault String
  | .null => .ok "None"
  | .bool b => .ok (boolShown b)
  | .int n => writtenInt n
  | .float x => .ok (messageFloat x)
  | .str s => .ok (Text.quote s)
  | .date d => .ok (dateShown d)
  | .datetime t => .ok (dateTimeShown t)
  | .bytes bs => .ok (Text.quoteBytes bs)

/-- A key as text by itself. -/
def Key.text : Key → Except Fault String
  | .str s => .ok s
  | .date d => .ok d.text
  | .datetime t => .ok t.text
  | k => k.shown

def setShown (keys : List Key) : Except Fault String := do
  if keys.isEmpty then return "set()"
  let shown ← keys.mapM Key.shown
  return "\x7b" ++ joinWith ", " shown ++ "\x7d"

/-- Whether two functions are equal: they have the same source and the same parameters. -/
def PropFunction.same (f g : PropFunction) : Bool := f.source == g.source && f.params == g.params

def PropFunction.shown (f : PropFunction) : String :=
  "PreviewFunction(" ++ Text.quote f.source ++ ")"

namespace Value

variable {ι : Type}

mutual

/-- A value in messages. -/
def shown : Value ι → Except Fault String
  | .null => .ok "None"
  | .undefined => .ok "undefined"
  | .bool b => .ok (boolShown b)
  | .int n => writtenInt n
  | .float x => .ok (messageFloat x)
  | .str s => .ok (Text.quote s)
  | .date _ d => .ok (dateShown d)
  | .datetime _ t => .ok (dateTimeShown t)
  | .bytes _ bs => .ok (Text.quoteBytes bs)
  | .set _ keys => setShown keys
  | .array _ items => do return "[" ++ joinWith ", " (← shownItems items) ++ "]"
  | .object _ entries => do return "\x7b" ++ joinWith ", " (← shownEntries entries) ++ "\x7d"
  | .pair v w => do
    let s ← v.shown
    return "(" ++ s ++ ", " ++ (← w.shown) ++ ")"
  | .function _ f => .ok f.shown
  | .builtin _ | .method .. => .ok "<function>"

def shownItems : List (Value ι) → Except Fault (List String)
  | [] => .ok []
  | v :: vs => do
    let s ← v.shown
    return s :: (← shownItems vs)

def shownEntries : List (Key × Value ι) → Except Fault (List String)
  | [] => .ok []
  | (k, v) :: es => do
    let key ← k.shown
    let s ← v.shown
    return (key ++ ": " ++ s) :: (← shownEntries es)

end

mutual

/-- A value as a string. The items of an array are joined by commas, missing ones being empty. -/
def display : Value ι → Except Fault String
  | .null => .ok "null"
  | .undefined => .ok "undefined"
  | .bool b => .ok (if b then "true" else "false")
  | .int n => writtenInt n
  | .float x => .ok (stringFloat x)
  | .str s => .ok s
  | .date _ d => .ok d.text
  | .datetime _ t => .ok t.text
  | .bytes _ bs => .ok (Text.quoteBytes bs)
  | .set _ keys => setShown keys
  | .array _ items => do return joinWith "," (← displayItems items)
  | .object .. => .ok "[object Object]"
  | .pair v w => shown (.pair v w)
  | .function _ f => .ok f.source
  | .builtin _ | .method .. => .ok "<function>"

def displayItems : List (Value ι) → Except Fault (List String)
  | [] => .ok []
  | .null :: vs | .undefined :: vs => do return "" :: (← displayItems vs)
  | v :: vs => do
    let s ← v.display
    return s :: (← displayItems vs)

end

/-- The text of a mapping key or plain value that a document gives where a text is wanted. -/
def plainText : Value ι → Except Fault String
  | .str s => .ok s
  | .date _ d => .ok d.text
  | .datetime _ t => .ok t.text
  | v => v.shown

end Value

end Vitrine
