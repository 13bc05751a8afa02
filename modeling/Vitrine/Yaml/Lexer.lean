import Vitrine.Yaml.Scalar
import Vitrine.Yaml.Token

/-!
The tokens of a document. Whether a scalar or a collection is a key shows only at the colon behind
it. A slot is left in front of everything that may be a key, and a colon fills the slot of the key
that it belongs to; slots that stay empty are no tokens.
-/
namespace Vitrine
namespace Yaml

/-- A token, or a place where the mark of a key may have to stand. -/
inductive Slot where
  | token (t : Token)
  | free (number : Nat)

/-- A possible key: its slot, where it begins, and whether it has to be a key. -/
structure PossibleKey where
  slot : Nat
  required : Bool
  index : Nat
  line : Nat
  column : Nat

structure Lexer where
  cursor : Cursor
  /-- The tokens so far, the newest first. -/
  slots : List Slot
  slotCount : Nat
  /-- How many brackets are open. -/
  flow : Nat
  /-- The column of the innermost block, and those of the blocks around it. -/
  indent : Int
  outer : List Int
  /-- Whether a key may begin here. -/
  keyAllowed : Bool
  /-- The possible keys by the number of brackets around them. -/
  keys : List (Nat × PossibleKey)

namespace Lexer

def start (cs : List Char) : Lexer := ⟨Cursor.start cs, [], 0, 0, -1, [], true, []⟩

def push (t : Token) (s : Lexer) : Lexer := { s with slots := .token t :: s.slots }

/-- A token of some characters. -/
def take (n : Nat) (t : Token) (s : Lexer) : Lexer :=
  { s.push t with cursor := s.cursor.skip n }

def forbidKeys (s : Lexer) : Lexer := { s with keyAllowed := false }

/-! ## Possible keys -/

/-- Whether a key can no longer reach its colon. -/
def isStale (c : Cursor) (k : PossibleKey) : Bool := k.line ≠ c.line || 1024 < c.index - k.index

/-- Gives up the keys whose colon cannot come any more. -/
def dropStaleKeys (s : Lexer) : Except Trouble Lexer :=
  if s.keys.any fun k => isStale s.cursor k.2 && k.2.required then .error .invalid
  else .ok { s with keys := s.keys.filter fun k => !isStale s.cursor k.2 }

/-- Gives up the possible key of this level. -/
def dropKey (s : Lexer) : Except Trouble Lexer :=
  match s.keys.lookup s.flow with
  | some k =>
    if k.required then .error .invalid
    else .ok { s with keys := s.keys.filter fun k => k.1 ≠ s.flow }
  | none => .ok s

/-- Notes that a key may begin here. -/
def saveKey (s : Lexer) : Except Trouble Lexer :=
  if s.keyAllowed then do
    let required := s.flow = 0 && s.indent = s.cursor.column
    let s ← s.dropKey
    let key := ⟨s.slotCount, required, s.cursor.index, s.cursor.line, s.cursor.column⟩
    return { s with
      keys := (s.flow, key) :: s.keys, slots := .free s.slotCount :: s.slots,
      slotCount := s.slotCount + 1 }
  else .ok s

/-- Fills a slot; the last of the tokens comes first. -/
def fill (number : Nat) (tokens : List Token) : List Slot → List Slot
  | [] => []
  | .free n :: slots =>
    if n = number then tokens.map .token ++ slots else .free n :: fill number tokens slots
  | slot :: slots => slot :: fill number tokens slots

/-! ## Indentation -/

/-- Closes the blocks that are indented further than a column. -/
def closeBlocks (column : Int) (s : Lexer) : Lexer :=
  if s.flow = 0 then close s.outer s else s
where
  close : List Int → Lexer → Lexer
    | [], s => s
    | outerIndent :: outer, s =>
      if column < s.indent then
        close outer { s.push .blockEnd with indent := outerIndent, outer := outer }
      else s

def deepen (column : Int) (s : Lexer) : Lexer :=
  { s with indent := column, outer := s.indent :: s.outer }

/-- Opens a block if this place is indented further than the one that is open. -/
def openBlock (t : Token) (s : Lexer) : Lexer :=
  if s.indent < s.cursor.column then (s.deepen s.cursor.column).push t else s

/-! ## Between tokens -/

/-- The next place that is neither a space nor in a comment. -/
def skipToToken (s : Lexer) : Lexer :=
  let c := s.cursor.skipSpaces.skipComment
  match c.lineBreak? with
  | some (_, next) =>
    let s' := { s with cursor := next, keyAllowed := s.keyAllowed || s.flow = 0 }
    if _h : next.rest.length < s.cursor.rest.length then skipToToken s' else s'
  | none => { s with cursor := c }
termination_by s.cursor.rest.length

/-! ## Directives -/

def isNameChar (c : Char) : Bool :=
  ('0' ≤ c ∧ c ≤ '9') || ('A' ≤ c ∧ c ≤ 'Z') || ('a' ≤ c ∧ c ≤ 'z') || c = '-' || c = '_'

def isUriChar (c : Char) : Bool := isNameChar c || ";/?:@&=+$,.!~*'()[]".toList.contains c

/-- The bytes that percent signs and digits stand for. -/
def uriBytes : List Char → Except Trouble (List UInt8 × List Char)
  | '%' :: a :: b :: cs =>
    match hexNumber? [a, b] with
    | some n => do
      let (bytes, rest) ← uriBytes cs
      return (UInt8.ofNat n :: bytes, rest)
    | none => .error .invalid
  | '%' :: _ => .error .invalid
  | cs => .ok ([], cs)

/-- The characters of a tag at the front. -/
def uriFrom (c : Cursor) : Except Trouble (List Char × Cursor) :=
  let plain := c.run isUriChar
  let c' := c.skip plain.length
  if c'.hasAt 0 (· = '%') then do
    let (bytes, rest) ← uriBytes c'.rest
    let next := c'.skip (c'.rest.length - rest.length)
    match String.fromUTF8? ⟨bytes.toArray⟩ with
    | none => .error .invalid
    | some s =>
      if _h : next.rest.length < c.rest.length then
        let (more, stop) ← uriFrom next
        return (plain ++ s.toList ++ more, stop)
      else .error .invalid
  else .ok (plain, c')
termination_by c.rest.length

/-- A tag's characters, of which there is at least one. -/
def uri (c : Cursor) : Except Trouble (String × Cursor) := do
  let (cs, stop) ← uriFrom c
  if stop.rest.length < c.rest.length then return (String.ofList cs, stop) else .error .invalid

/-- The handle of a tag: exclamation marks around a name, or one alone in front of a space. -/
def handle (c : Cursor) : Except Trouble (String × Cursor) :=
  if !c.hasAt 0 (· = '!') then .error .invalid
  else if c.hasAt 1 (· = ' ') then .ok ("!", c.step)
  else
    let name := c.step.run isNameChar
    if c.hasAt (name.length + 1) (· = '!') then
      .ok ("!" ++ String.ofList name ++ "!", c.skip (name.length + 2))
    else .error .invalid

def number (c : Cursor) : Except Trouble (Nat × Cursor) :=
  let digits := c.run fun ch => '0' ≤ ch ∧ ch ≤ '9'
  if digits.isEmpty then .error .invalid
  else .ok (digits.foldl (fun n d => n * 10 + (d.toNat - 48)) 0, c.skip digits.length)

def versionDirective (c : Cursor) : Except Trouble (Directive × Cursor) := do
  let (major, c) ← number c.skipSpaces
  if !c.hasAt 0 (· = '.') then .error .invalid
  let (_, c) ← number c.step
  if !c.spaceAt 0 then .error .invalid
  return (.version major, c)

def tagDirective (c : Cursor) : Except Trouble (Directive × Cursor) := do
  let (name, c) ← handle c.skipSpaces
  if !c.hasAt 0 (· = ' ') then .error .invalid
  let (lead, c) ← uri c.skipSpaces
  if !c.spaceAt 0 then .error .invalid
  return (.tag name lead, c)

/-- A directive, from behind its percent sign to the next line. -/
def directiveFrom (c : Cursor) : Except Trouble (Directive × Cursor) := do
  let name := c.run isNameChar
  let c := c.skip name.length
  if name.isEmpty || !c.spaceAt 0 then .error .invalid
  let (d, c) ← match String.ofList name with
    | "YAML" => versionDirective c
    | "TAG" => tagDirective c
    | _ => .ok (.other, c.skipLine)
  let c := c.skipSpaces.skipComment
  if !c.lineEndAt 0 then .error .invalid
  return (d, ((c.lineBreak?).map (·.2)).getD c)

/-! ## Anchors and tags -/

/-- What may stand behind the name of an anchor. -/
def endsAnchor (c : Char) : Bool := isTabOrSpace c || isBreak c || "?:,]\x7d%@`".toList.contains c

/-- The name of an anchor, from behind its mark. -/
def anchorName (c : Cursor) : Except Trouble (String × Cursor) :=
  let name := c.run isNameChar
  let stop := c.skip name.length
  if name.isEmpty || !stop.endsAt 0 endsAnchor then .error .invalid
  else .ok (String.ofList name, stop)

/-- Whether an exclamation mark comes before the next space. -/
def hasHandle : List Char → Bool
  | [] => false
  | c :: cs => if c = ' ' || isBreak c then false else c = '!' || hasHandle cs

/-- A tag, from its exclamation mark on. -/
def tagFrom (c : Cursor) : Except Trouble (Token × Cursor) := do
  let (t, stop) ←
    if c.hasAt 1 (· = '<') then do
      let (suffix, stop) ← uri (c.skip 2)
      if stop.hasAt 0 (· = '>') then pure (Token.tag none suffix, stop.step) else .error .invalid
    else if c.blankAt 1 then pure (.tag none "!", c.step)
    else do
      let (name, c) ← if hasHandle (c.rest.drop 1) then handle c else pure ("!", c.step)
      let (suffix, stop) ← uri c
      pure (.tag (some name) suffix, stop)
  if stop.spaceAt 0 then return (t, stop) else .error .invalid

/-! ## Tokens -/

/-- A token at which no key begins any more; it closes all blocks. -/
def breakOff (s : Lexer) : Except Trouble Lexer := do
  return (← (s.closeBlocks (-1)).dropKey).forbidKeys

/-- An opening bracket, which a key may begin with. -/
def openFlow (t : Token) (s : Lexer) : Except Trouble Lexer := do
  let s ← s.saveKey
  return { s.take 1 t with flow := s.flow + 1, keyAllowed := true }

def closeFlow (t : Token) (s : Lexer) : Except Trouble Lexer := do
  let s ← s.dropKey
  if s.flow = 0 then .error .invalid
  else return ({ s.take 1 t with flow := s.flow - 1 }).forbidKeys

def flowEntry (s : Lexer) : Except Trouble Lexer := do
  return ({ (← s.dropKey) with keyAllowed := true }).take 1 .flowEntry

def blockEntry (s : Lexer) : Except Trouble Lexer := do
  if s.flow = 0 && !s.keyAllowed then .error .invalid
  let s := if s.flow = 0 then s.openBlock .blockSequenceStart else s
  return ({ (← s.dropKey) with keyAllowed := true }).take 1 .blockEntry

def explicitKey (s : Lexer) : Except Trouble Lexer := do
  if s.flow = 0 && !s.keyAllowed then .error .invalid
  let s := if s.flow = 0 then s.openBlock .blockMappingStart else s
  return ({ (← s.dropKey) with keyAllowed := s.flow = 0 }).take 1 .key

/-- A colon. It makes a key of what was noted as a possible key; without one, it belongs to a key
with a mark of its own. -/
def valueMark (s : Lexer) : Except Trouble Lexer := do
  match s.keys.lookup s.flow with
  | some k =>
    let opens := s.flow = 0 && s.indent < k.column
    let tokens := if opens then [Token.key, .blockMappingStart] else [.key]
    let s := if opens then s.deepen k.column else s
    return ({ s with
      slots := fill k.slot tokens s.slots,
      keys := s.keys.filter fun k => k.1 ≠ s.flow }).forbidKeys.take 1 .value
  | none =>
    if s.flow = 0 && !s.keyAllowed then .error .invalid
    let s := if s.flow = 0 then s.openBlock .blockMappingStart else s
    return ({ (← s.dropKey) with keyAllowed := s.flow = 0 }).take 1 .value

/-- A token that a key may begin with, read by a function from its second character on. -/
def keyLike (read : Cursor → Except Trouble (Token × Cursor)) (s : Lexer) :
    Except Trouble Lexer := do
  let s ← s.saveKey
  let (t, stop) ← read s.cursor
  return ({ s.push t with cursor := stop }).forbidKeys

def anchorLike (make : String → Token) (c : Cursor) : Except Trouble (Token × Cursor) := do
  let (name, stop) ← anchorName c.step
  return (make name, stop)

def quoted (double : Bool) (c : Cursor) : Except Trouble (Token × Cursor) := do
  let (text, stop) ← quotedFrom double c.step
  return (.scalar (String.ofList text) false, stop)

def block (folded : Bool) (s : Lexer) : Except Trouble Lexer := do
  let s ← s.dropKey
  let (text, stop) ← blockFrom folded s.indent s.cursor.step
  return { s.push (.scalar (String.ofList text) false) with cursor := stop, keyAllowed := true }

def plain (s : Lexer) : Except Trouble Lexer := do
  let s ← s.saveKey
  let r := plainFrom (s.flow ≠ 0) (s.indent + 1) s.cursor
  return { s.push (.scalar (String.ofList r.text) true) with
    cursor := r.stop, keyAllowed := r.newLine }

/-- The marks that a plain scalar does not begin with. -/
def isIndicator (c : Char) : Bool := "-?:,[]\x7b\x7d#&*!|>'\"%@`".toList.contains c

/-- Whether a plain scalar begins here. -/
def beginsPlain (s : Lexer) (c : Char) : Bool :=
  !(isTabOrSpace c || isBreak c || isIndicator c) ||
    (!s.cursor.blankAt 1 && (c = '-' || (s.flow = 0 && (c = '?' || c = ':'))))

/-- Whether a mark that needs a blank behind it outside brackets stands alone. -/
def standsAlone (s : Lexer) : Bool := s.flow ≠ 0 || s.cursor.blankAt 1

/-- The token at a character. -/
def next (c : Char) (s : Lexer) : Except Trouble Lexer :=
  if c = '%' && s.cursor.column = 0 then do
    let s ← s.breakOff
    let (d, stop) ← directiveFrom s.cursor.step
    return { s.push (.directive d) with cursor := stop }
  else if s.cursor.column = 0 && s.cursor.atSeparator then do
    return (← s.breakOff).take 3 (if c = '-' then .documentStart else .documentEnd)
  else if c = '[' then s.openFlow .flowSequenceStart
  else if c = '\x7b' then s.openFlow .flowMappingStart
  else if c = ']' then s.closeFlow .flowSequenceEnd
  else if c = '\x7d' then s.closeFlow .flowMappingEnd
  else if c = ',' then s.flowEntry
  else if c = '-' && s.cursor.blankAt 1 then s.blockEntry
  else if c = '?' && s.standsAlone then s.explicitKey
  else if c = ':' && s.standsAlone then s.valueMark
  else if c = '*' then s.keyLike (anchorLike .alias)
  else if c = '&' then s.keyLike (anchorLike .anchor)
  else if c = '!' then s.keyLike tagFrom
  else if (c = '|' || c = '>') && s.flow = 0 then s.block (c = '>')
  else if c = '\'' then s.keyLike (quoted false)
  else if c = '"' then s.keyLike (quoted true)
  else if s.beginsPlain c then s.plain
  else .error .invalid

/-- All tokens from here on, the newest first. -/
def run (s : Lexer) : Except Trouble (List Slot) := do
  let s' ← s.skipToToken.dropStaleKeys
  let s' := s'.closeBlocks s'.cursor.column
  match s'.cursor.rest with
  | [] => return (← (s'.closeBlocks (-1)).dropKey).slots
  | c :: _ =>
    let after ← s'.next c
    if _h : after.cursor.rest.length < s.cursor.rest.length then run after else .error .invalid
termination_by s.cursor.rest.length

end Lexer

/-- The characters that a document may hold. -/
def isDocumentChar (c : Char) : Bool :=
  let n := c.toNat
  n == 9 || n == 10 || n == 13 || (0x20 ≤ n && n ≤ 0x7e) || n == 0x85 ||
    (0xa0 ≤ n && n ≤ 0xd7ff) || (0xe000 ≤ n && n ≤ 0xfffd) || 0x10000 ≤ n

def tokenOf? : Slot → Option Token
  | .token t => some t
  | .free _ => none

/-- The tokens of a text; a byte order mark in front of it is passed over. -/
def tokenize (text : String) : Except Trouble (List Token) := do
  let cs := text.toList
  if !cs.all isDocumentChar then .error .invalid
  let cs := if cs.head? = some byteOrderMark then cs.drop 1 else cs
  return ((← (Lexer.start cs).run).filterMap tokenOf?).reverse

end Yaml
end Vitrine
