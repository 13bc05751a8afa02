import Vitrine.Preview.Issue
import Vitrine.Text.Bytes

/-!
Reading fields. A field may go by several names, the first of which wins. Bytes stand for the text
that they encode wherever a text is wanted.
-/
namespace Vitrine
namespace Preview

def readText : Data → Except Complaint String
  | .str s => .ok s
  | .bytes _ bs =>
    match Text.ofBytes? bs with
    | some s => .ok s
    | none => .error .encoding
  | _ => .error .text

def textOf (v : Data) : Checked String := Checked.ofExcept (readText v)

/-- A text, which null leaves out. -/
def optionalText : Data → Checked (Option String)
  | .null => .valid none
  | v => (textOf v).map some

/-- The items of a list or a set, each under its number. -/
def itemsOf {α : Type} (readItem : Data → Checked α) (v : Data) : Checked (List α) :=
  match v with
  | .array _ items => readAll items
  | .set _ keys => readAll (keys.map Key.toValue)
  | _ => Checked.fail .list
where
  readAll (items : List Data) : Checked (List α) :=
    Checked.all (items.zipIdx.map fun p => (readItem p.1).within (Decimal.intText p.2))

/-- How a key is named in a place. -/
def keyPlace : Key → String
  | .bool b => if b then "1" else "0"
  | .int n => Decimal.intText n
  | .str s => s
  | k =>
    match k.shown with
    | .ok s => s
    | .error _ => "?"

/-- The entries of a mapping whose keys have to be texts. -/
def textEntries (entries : List (Key × Data)) : Checked (List (String × Data)) :=
  Checked.all (entries.map fun e =>
    ((textOf e.1.toValue).within "[key]").within (keyPlace e.1) |>.map fun name => (name, e.2))

/-- A mapping with texts as keys. -/
def mappingOf : Data → Checked (List (Key × Data))
  | .object _ entries =>
    (textEntries entries).map fun es => Entries.ofList (es.map fun e => (.str e.1, e.2))
  | _ => Checked.fail .mapping

/-- Whether two texts are equal but for the case of ASCII letters. -/
def sameWord (a b : String) : Bool := a.toList.map Char.toLower == b.toList.map Char.toLower

def trueWords : List String := ["1", "on", "t", "true", "y", "yes"]

def falseWords : List String := ["0", "off", "f", "false", "n", "no"]

def booleanOfText (s : String) : Checked Bool :=
  if trueWords.any (sameWord s) then .valid true
  else if falseWords.any (sameWord s) then .valid false
  else Checked.fail .booleanWord

def booleanOfInt (n : Int) : Checked Bool :=
  if n = 1 then .valid true else if n = 0 then .valid false else Checked.fail .booleanWord

/-- A truth value, also as a number or a word. -/
def booleanOf : Data → Checked Bool
  | .bool b => .valid b
  | .int n => booleanOfInt n
  | .float x =>
    match Decimal.Binary.ofFloat? x with
    | some b => if b.isWhole then booleanOfInt b.floor else Checked.fail .boolean
    | none => Checked.fail .boolean
  | .str s => booleanOfText s
  | .bytes _ bs =>
    match Text.ofBytes? bs with
    | some s => booleanOfText s
    | none => Checked.fail .booleanWord
  | _ => Checked.fail .boolean

/-- A word out of a list. -/
def choiceOf {α : Type} (options : List (String × α)) (v : Data) : Checked α :=
  match (readText v).toOption.bind (fun s => options.lookup s) with
  | some a => .valid a
  | none => Checked.fail (.choice (options.map (·.1)))

/-- The first name under which a mapping has a value, and that value. -/
def fieldIn? (entries : List (Key × Data)) : List String → Option (String × Data)
  | [] => none
  | name :: names =>
    match Entries.get? name entries with
    | some v => some (name, v)
    | none => fieldIn? entries names

/-- A field, with what it is if it is missing. -/
def field {α : Type} (entries : List (Key × Data)) (names : List String) (missing : Checked α)
    (readField : Data → Checked α) : Checked α :=
  match fieldIn? entries names with
  | some (name, v) => (readField v).within name
  | none => missing.within (names.headD "")

end Preview
end Vitrine
