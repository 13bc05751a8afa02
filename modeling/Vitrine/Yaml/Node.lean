import Vitrine.Yaml.Lexer
import Vitrine.Yaml.Tag

/-!
The node that a document holds, read from its tokens. An alias stands for the node that its anchor
names; a document holds at most one node.
-/
namespace Vitrine
namespace Yaml

inductive Node where
  | scalar (tag : Tag) (text : String)
  | sequence (tag : Tag) (items : List Node)
  | mapping (tag : Tag) (entries : List (Node × Node))

/-- The anchors so far. One that names a node not yet read to its end names no node. -/
abbrev Anchors := List (String × Option Node)

/-- What was read from `ts`, the anchors then and the tokens behind it. -/
structure Parsed (α : Type) (ts : List Token) where
  value : α
  anchors : Anchors
  rest : List Token
  shorter : rest.length < ts.length

/-- What was read by something that may be empty. -/
structure Followed (α : Type) (ts : List Token) where
  value : α
  anchors : Anchors
  rest : List Token
  noLonger : rest.length ≤ ts.length

theorem Parsed.shorter_cons {α : Type} {ts : List Token} (p : Parsed α ts) (t : Token) :
    p.rest.length < (t :: ts).length := Nat.lt_succ_of_lt p.shorter

theorem Followed.shorter_cons {α : Type} {ts : List Token} (f : Followed α ts) (t : Token) :
    f.rest.length < (t :: ts).length := Nat.lt_succ_of_le f.noLonger

/-- The handles of tags and what they stand for. -/
abbrev Handles := List (String × String)

def standardHandles : Handles := [("!", "!"), ("!!", standardLead)]

/-- The anchor and the tag in front of a node. -/
structure Properties where
  anchor : Option String
  tag : Option String

def Properties.none : Properties := ⟨Option.none, Option.none⟩

def Properties.isNone (p : Properties) : Bool := p.anchor.isNone && p.tag.isNone

/-- The full name of a tag. -/
def tagName (handles : Handles) (handle : Option String) (suffix : String) :
    Except Trouble String :=
  match handle with
  | none => .ok suffix
  | some h =>
    match handles.lookup h with
    | some lead => .ok (lead ++ suffix)
    | none => .error .invalid

/-- The anchor and the tag at the front, in any order. -/
def properties (handles : Handles) (anchors : Anchors) (ts : List Token) :
    Except Trouble (Followed Properties ts) :=
  match ts with
  | .anchor a :: .tag h s :: rest => do
    return ⟨⟨some a, some (← tagName handles h s)⟩, anchors, rest, by simp; omega⟩
  | .tag h s :: .anchor a :: rest => do
    return ⟨⟨some a, some (← tagName handles h s)⟩, anchors, rest, by simp; omega⟩
  | .anchor a :: rest => .ok ⟨⟨some a, none⟩, anchors, rest, by simp⟩
  | .tag h s :: rest => do
    return ⟨⟨none, some (← tagName handles h s)⟩, anchors, rest, by simp⟩
  | ts => .ok ⟨Properties.none, anchors, ts, by simp⟩

namespace Properties

/-- The tag of a scalar. The tag `!` asks for the tag that the text shows. -/
def scalarTag (p : Properties) (text : String) (plain : Bool) : Tag :=
  match p.tag with
  | some "!" => Tag.ofPlain text
  | some name => Tag.ofName name
  | Option.none => if plain then Tag.ofPlain text else .str

/-- The tag of a collection. -/
def collectionTag (p : Properties) (default : Tag) : Tag :=
  match p.tag with
  | some "!" | Option.none => default
  | some name => Tag.ofName name

/-- Notes the anchor of a node that is going to be read. -/
def announce (p : Properties) (anchors : Anchors) : Except Trouble Anchors :=
  match p.anchor with
  | some a =>
    if (anchors.lookup a).isSome then .error .invalid else .ok ((a, Option.none) :: anchors)
  | Option.none => .ok anchors

/-- Lets the anchor name the node that was read. -/
def settle (p : Properties) (node : Node) (anchors : Anchors) : Anchors :=
  match p.anchor with
  | some a => (a, some node) :: anchors
  | Option.none => anchors

end Properties

def emptyScalar : Node := .scalar .null ""

/-- Where a node stands: whether blocks may follow, and whether a sequence may follow that is
indented no further than the mapping around it. -/
structure Context where
  block : Bool
  indentless : Bool

def Context.inBlock : Context := ⟨true, false⟩

def Context.inMapping : Context := ⟨true, true⟩

def Context.inFlow : Context := ⟨false, false⟩

/-- Whether a token begins the content of a node. -/
def Context.begins (context : Context) : Token → Bool
  | .scalar .. | .flowSequenceStart | .flowMappingStart => true
  | .blockSequenceStart | .blockMappingStart => context.block
  | .blockEntry => context.indentless
  | _ => false

/-- Whether the first token satisfies a condition; at the end of the tokens, nothing does. -/
def headIs (p : Token → Bool) (ts : List Token) : Bool := ts.head?.any p

/-- Whether an entry of a block ends in front of a token. -/
def endsItem (t : Token) : Bool := t = .blockEntry || t = .blockEnd

def endsEntry (t : Token) : Bool := t = .key || t = .value || t = .blockEnd

def endsIndentless (t : Token) : Bool := t = .blockEntry || endsEntry t

/-- Whether a key or a value between brackets ends in front of a token. -/
def endsFlowValue (t : Token) : Bool :=
  t = .flowEntry || t = .flowSequenceEnd || t = .flowMappingEnd

def endsFlowKey (t : Token) : Bool := t = .value || endsFlowValue t

mutual

def parseNode (handles : Handles) (context : Context) (anchors : Anchors) (ts : List Token) :
    Except Trouble (Parsed Node ts) :=
  match ts with
  | .alias name :: rest =>
    match anchors.lookup name with
    | some (some node) => .ok ⟨node, anchors, rest, by simp⟩
    | some none => .error (.fault .depth)
    | none => .error .invalid
  | ts => do
    let ⟨p, _, rest, _⟩ ← properties handles anchors ts
    let anchors ← p.announce anchors
    if headIs context.begins rest then
      let content ← parseContent handles p anchors rest
      have := content.shorter
      return ⟨content.value, p.settle content.value content.anchors, content.rest, by omega⟩
    else
      let node := Node.scalar (p.scalarTag "" true) ""
      if h : rest.length < ts.length then return ⟨node, p.settle node anchors, rest, h⟩
      else .error .invalid
termination_by 10 * ts.length + 2
decreasing_by all_goals (simp_all; try omega)

def parseContent (handles : Handles) (p : Properties) (anchors : Anchors) (ts : List Token) :
    Except Trouble (Parsed Node ts) :=
  match ts with
  | .scalar text plain :: rest =>
    .ok ⟨.scalar (p.scalarTag text plain) text, anchors, rest, by simp⟩
  | .flowSequenceStart :: rest => do
    let items ← parseFlowItems handles anchors rest
    return ⟨.sequence (p.collectionTag .seq) items.value, items.anchors, items.rest,
      items.shorter_cons _⟩
  | .flowMappingStart :: rest => do
    let entries ← parseFlowEntries handles anchors rest
    return ⟨.mapping (p.collectionTag .map) entries.value, entries.anchors, entries.rest,
      entries.shorter_cons _⟩
  | .blockSequenceStart :: rest => do
    let items ← parseBlockItems handles anchors rest
    return ⟨.sequence (p.collectionTag .seq) items.value, items.anchors, items.rest,
      items.shorter_cons _⟩
  | .blockMappingStart :: rest => do
    let entries ← parseBlockEntries handles anchors rest
    return ⟨.mapping (p.collectionTag .map) entries.value, entries.anchors, entries.rest,
      entries.shorter_cons _⟩
  | .blockEntry :: rest => do
    let items ← parseIndentless handles anchors rest
    return ⟨.sequence (p.collectionTag .seq) items.value, items.anchors, items.rest,
      items.shorter_cons _⟩
  | _ => .error .invalid
termination_by 10 * ts.length + 1
decreasing_by all_goals (simp_all; try omega)

/-- A node, or an empty scalar if none follows. -/
def parseItem (handles : Handles) (context : Context) (ends : Token → Bool) (anchors : Anchors)
    (ts : List Token) : Except Trouble (Followed Node ts) :=
  if headIs ends ts then .ok ⟨emptyScalar, anchors, ts, by simp⟩
  else do
    let node ← parseNode handles context anchors ts
    have := node.shorter
    return ⟨node.value, node.anchors, node.rest, by omega⟩
termination_by 10 * ts.length + 3
decreasing_by all_goals (simp_all; try omega)

/-- The value behind a key, or an empty scalar if there is none. -/
def parseValue (handles : Handles) (context : Context) (ends : Token → Bool) (anchors : Anchors)
    (ts : List Token) : Except Trouble (Followed Node ts) :=
  match ts with
  | .value :: rest => do
    let v ← parseItem handles context ends anchors rest
    have := v.noLonger
    return ⟨v.value, v.anchors, v.rest, by simp; omega⟩
  | ts => .ok ⟨emptyScalar, anchors, ts, by simp⟩
termination_by 10 * ts.length + 4
decreasing_by all_goals (simp_all; try omega)

/-- The items of a sequence in a block, up to the end of the block. -/
def parseBlockItems (handles : Handles) (anchors : Anchors) (ts : List Token) :
    Except Trouble (Parsed (List Node) ts) :=
  match ts with
  | .blockEntry :: rest => do
    let item ← parseItem handles .inBlock endsItem anchors rest
    have := item.noLonger
    let others ← parseBlockItems handles item.anchors item.rest
    have := others.shorter
    return ⟨item.value :: others.value, others.anchors, others.rest, by simp; omega⟩
  | .blockEnd :: rest => .ok ⟨[], anchors, rest, by simp⟩
  | _ => .error .invalid
termination_by 10 * ts.length + 5
decreasing_by all_goals (simp_all; try omega)

/-- The items of a sequence that no block of its own surrounds, from behind the first mark. -/
def parseIndentless (handles : Handles) (anchors : Anchors) (ts : List Token) :
    Except Trouble (Followed (List Node) ts) := do
  let item ← parseItem handles .inBlock endsIndentless anchors ts
  have first := item.noLonger
  match h : item.rest with
  | .blockEntry :: rest =>
    have : rest.length < ts.length := by rw [h, List.length_cons] at first; omega
    let others ← parseIndentless handles item.anchors rest
    have := others.noLonger
    return ⟨item.value :: others.value, others.anchors, others.rest, by omega⟩
  | rest => return ⟨[item.value], item.anchors, rest, by rw [← h]; exact first⟩
termination_by 10 * ts.length + 5
decreasing_by all_goals (simp_all; try omega)

/-- The entries of a mapping in a block, up to the end of the block. -/
def parseBlockEntries (handles : Handles) (anchors : Anchors) (ts : List Token) :
    Except Trouble (Parsed (List (Node × Node)) ts) :=
  match ts with
  | .key :: rest => do
    let key ← parseItem handles .inMapping endsEntry anchors rest
    have := key.noLonger
    let value ← parseValue handles .inMapping endsEntry key.anchors key.rest
    have := value.noLonger
    let others ← parseBlockEntries handles value.anchors value.rest
    have := others.shorter
    return ⟨(key.value, value.value) :: others.value, others.anchors, others.rest,
      by simp; omega⟩
  | .blockEnd :: rest => .ok ⟨[], anchors, rest, by simp⟩
  | _ => .error .invalid
termination_by 10 * ts.length + 5
decreasing_by all_goals (simp_all; try omega)

/-- The items between brackets, from where an item or the last bracket may stand. A key by itself is
a mapping of one entry. -/
def parseFlowItems (handles : Handles) (anchors : Anchors) (ts : List Token) :
    Except Trouble (Parsed (List Node) ts) :=
  match ts with
  | .flowSequenceEnd :: rest => .ok ⟨[], anchors, rest, by simp⟩
  | .key :: rest => do
    let key ← parseItem handles .inFlow endsFlowKey anchors rest
    have := key.noLonger
    let value ← parseValue handles .inFlow endsFlowValue key.anchors key.rest
    have := value.noLonger
    let others ← parseMoreFlowItems handles value.anchors value.rest
    have := others.shorter
    return ⟨.mapping .map [(key.value, value.value)] :: others.value, others.anchors, others.rest,
      by simp; omega⟩
  | ts => do
    let item ← parseNode handles .inFlow anchors ts
    have := item.shorter
    let others ← parseMoreFlowItems handles item.anchors item.rest
    have := others.shorter
    return ⟨item.value :: others.value, others.anchors, others.rest, by omega⟩
termination_by 10 * ts.length + 5
decreasing_by all_goals (simp_all; try omega)

def parseMoreFlowItems (handles : Handles) (anchors : Anchors) (ts : List Token) :
    Except Trouble (Parsed (List Node) ts) :=
  match ts with
  | .flowSequenceEnd :: rest => .ok ⟨[], anchors, rest, by simp⟩
  | .flowEntry :: rest => do
    let items ← parseFlowItems handles anchors rest
    have := items.shorter
    return ⟨items.value, items.anchors, items.rest, by simp; omega⟩
  | _ => .error .invalid
termination_by 10 * ts.length + 5
decreasing_by all_goals (simp_all; try omega)

/-- The entries between braces, from where an entry or the last brace may stand. -/
def parseFlowEntries (handles : Handles) (anchors : Anchors) (ts : List Token) :
    Except Trouble (Parsed (List (Node × Node)) ts) :=
  match ts with
  | .flowMappingEnd :: rest => .ok ⟨[], anchors, rest, by simp⟩
  | .key :: rest => do
    let key ← parseItem handles .inFlow endsFlowKey anchors rest
    have := key.noLonger
    let value ← parseValue handles .inFlow endsFlowValue key.anchors key.rest
    have := value.noLonger
    let others ← parseMoreFlowEntries handles value.anchors value.rest
    have := others.shorter
    return ⟨(key.value, value.value) :: others.value, others.anchors, others.rest,
      by simp; omega⟩
  | ts => do
    let key ← parseNode handles .inFlow anchors ts
    have := key.shorter
    let others ← parseMoreFlowEntries handles key.anchors key.rest
    have := others.shorter
    return ⟨(key.value, emptyScalar) :: others.value, others.anchors, others.rest, by omega⟩
termination_by 10 * ts.length + 5
decreasing_by all_goals (simp_all; try omega)

def parseMoreFlowEntries (handles : Handles) (anchors : Anchors) (ts : List Token) :
    Except Trouble (Parsed (List (Node × Node)) ts) :=
  match ts with
  | .flowMappingEnd :: rest => .ok ⟨[], anchors, rest, by simp⟩
  | .flowEntry :: rest => do
    let entries ← parseFlowEntries handles anchors rest
    have := entries.shorter
    return ⟨entries.value, entries.anchors, entries.rest, by simp; omega⟩
  | _ => .error .invalid
termination_by 10 * ts.length + 5
decreasing_by all_goals (simp_all; try omega)

end

/-! ## Documents -/

/-- The directives at the front: whether a version was given, and the handles of tags. -/
def directives (versioned : Bool) (handles : Handles) :
    List Token → Except Trouble (Handles × List Token)
  | .directive (.version major) :: ts =>
    if versioned || major ≠ 1 then .error .invalid else directives true handles ts
  | .directive (.tag handle lead) :: ts =>
    if (handles.lookup handle).isSome then .error .invalid
    else directives versioned ((handle, lead) :: handles) ts
  | .directive .other :: ts => directives versioned handles ts
  | ts => .ok (handles ++ standardHandles, ts)

/-- Whether a token stands between documents. -/
def isBetween : Token → Bool
  | .directive _ | .documentStart | .documentEnd => true
  | _ => false

/-- The node that the tokens make up, if there are any; nothing but ends of the document may follow
it. -/
def document (ts : List Token) : Except Trouble (Option Node) := do
  if ts.isEmpty then return none
  let (node, rest) ←
    if headIs (fun t => isBetween t && t ≠ .documentEnd) ts then do
      let (handles, ts) ← directives false [] ts
      match ts with
      | .documentStart :: rest =>
        if rest.isEmpty || headIs isBetween rest then pure (emptyScalar, rest)
        else do
          let node ← parseNode handles .inBlock [] rest
          pure (node.value, node.rest)
      | _ => .error .invalid
    else do
      let node ← parseNode standardHandles .inBlock [] ts
      pure (node.value, node.rest)
  if rest.all (· = .documentEnd) then return some node else .error .invalid

end Yaml
end Vitrine
