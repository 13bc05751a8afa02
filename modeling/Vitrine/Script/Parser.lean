import Vitrine.Decimal.Reader
import Vitrine.Script.Lexer
import Vitrine.Script.Syntax

/-!
The parser. Every function takes the tokens that are left and answers what it read with the tokens
behind it; the answer carries the fact that there are fewer of them, which is why all loops end.

    sequence    = expr ("," expr)*
    expr        = level 0 ("?" expr ":" expr)?
    level n     = level (n + 1) (operator of n, level (n + 1))*        for n below 6
    level 6     = ("!" | "-" | "+" | "typeof") level 6 | postfix
    postfix     = primary ("." name | "[" sequence "]" | "(" args ")")*
    primary     = literal | name | "new" postfix | "(" sequence ")" | array | object
-/
namespace Vitrine
namespace Script

inductive ParseError where
  | expected (kind : Kind) (got : Token)
  | unexpected (got : Token)
  | trailing (got : Token)
  | propertyName (got : Token)
  | objectKey (got : Token)
  | missingColon (key : Token)
  | asyncFunction (got : Token)
  | lexical (e : LexError)
  | fault (f : Fault)

def ParseError.message : ParseError → String
  | .expected kind got =>
    "Expected " ++ kind.name ++ ", got " ++ got.kind.name ++ " (" ++ Text.quote got.text ++ ")"
  | .unexpected got => "Unexpected token: " ++ got.kind.name ++ " (" ++ Text.quote got.text ++ ")"
  | .trailing got => "Unexpected token after expression: " ++ Text.quote got.text
  | .propertyName got => "Expected property name, got " ++ Text.quote got.text
  | .objectKey got => "Invalid object key: " ++ Text.quote got.text
  | .missingColon key => "Expected ':' after " ++ Text.quote key.text
  | .asyncFunction _ => "async functions are not supported"
  | .lexical e => e.message
  | .fault f => f.label

def ParseError.pos : ParseError → Nat
  | .expected _ t | .unexpected t | .trailing t | .propertyName t | .objectKey t
  | .missingColon t | .asyncFunction t => t.pos
  | .lexical e => e.pos
  | .fault _ => 0

/-- What was read from `ts`, and the tokens behind it. -/
structure Parsed (α : Type) (ts : List Token) where
  value : α
  rest : List Token
  shorter : rest.length < ts.length

/-- What was read from `ts` by something that may be empty. -/
structure Followed (α : Type) (ts : List Token) where
  value : α
  rest : List Token
  noLonger : rest.length ≤ ts.length

theorem noLonger_nil : ([] : List Token).length ≤ ([] : List Token).length := Nat.le_refl _

theorem noLonger_refl (ts : List Token) : ts.length ≤ ts.length := Nat.le_refl _

theorem noLonger_cons (t : Token) (ts : List Token) : (t :: ts).length ≤ (t :: ts).length :=
  Nat.le_refl _

theorem noLonger_tail (t : Token) (ts : List Token) : ts.length ≤ (t :: ts).length := Nat.le_succ _

theorem shorter_tail (t : Token) (ts : List Token) : ts.length < (t :: ts).length :=
  Nat.lt_succ_self _

namespace Parsed

variable {α : Type} {ts rest : List Token}

theorem shorter_cons (p : Parsed α ts) (t : Token) : p.rest.length < (t :: ts).length :=
  Nat.lt_succ_of_lt p.shorter

theorem shorter_cons_of_tail (p : Parsed α ts.tail) (t : Token) : p.rest.length < (t :: ts).length :=
  Nat.lt_succ_of_lt (Nat.lt_of_lt_of_le p.shorter (ts.length_tail ▸ Nat.sub_le _ _))

theorem noLonger_of_le (p : Parsed α rest) (h : rest.length ≤ ts.length) :
    p.rest.length ≤ ts.length := Nat.le_of_lt (Nat.lt_of_lt_of_le p.shorter h)

end Parsed

/-- The current token; behind the last one, the end of input. -/
def current : List Token → Token
  | [] => ⟨.eof, "", 0⟩
  | t :: _ => t

/-- The token behind the current one; at the end of input, the end of input. -/
def upcoming : List Token → Token
  | [] => ⟨.eof, "", 0⟩
  | [t] => t
  | _ :: t :: _ => t

/-- The tokens behind a token that is taken whatever its kind; the end of input is not left. -/
def beyond (t : Token) (ts : List Token) : List Token := if t.kind = .eof then t :: ts else ts

theorem beyond_noLonger (t : Token) (ts : List Token) : (beyond t ts).length ≤ ts.length + 1 := by
  rw [beyond]
  split
  · exact Nat.le_refl _
  · exact Nat.le_succ _

/-- Reads one token of a given kind. -/
def expectToken (kind : Kind) : (ts : List Token) → Except ParseError (Parsed Token ts)
  | [] => .error (.expected kind (current []))
  | t :: ts => if t.kind = kind then .ok ⟨t, ts, by simp⟩ else .error (.expected kind t)

/-- Reads a symbol if it is there. -/
def skipSymbol (s : Symbol) : (ts : List Token) → Followed Bool ts
  | [] => ⟨false, [], noLonger_nil⟩
  | t :: ts =>
    if t.kind = .symbol s then ⟨true, ts, noLonger_tail t ts⟩
    else ⟨false, t :: ts, noLonger_cons t ts⟩

/-- The operators of a precedence level, from the loosest (0) to the tightest (5). -/
def operatorAt (level : Nat) (kind : Kind) : Option BinaryOp :=
  match level, kind with
  | 0, .symbol .or => some .or
  | 0, .symbol .nullish => some .nullish
  | 1, .symbol .and => some .and
  | 2, .symbol .eq => some .eq
  | 2, .symbol .ne => some .ne
  | 2, .symbol .strictEq => some .strictEq
  | 2, .symbol .strictNe => some .strictNe
  | 3, .symbol .lt => some .lt
  | 3, .symbol .gt => some .gt
  | 3, .symbol .le => some .le
  | 3, .symbol .ge => some .ge
  | 4, .symbol .plus => some .add
  | 4, .symbol .minus => some .sub
  | 5, .symbol .star => some .mul
  | 5, .symbol .slash => some .div
  | 5, .symbol .percent => some .mod
  | _, _ => none

def unaryOperator (kind : Kind) : Option UnaryOp :=
  match kind with
  | .symbol .not => some .not
  | .symbol .minus => some .neg
  | .symbol .plus => some .pos
  | .keyword .kwTypeof => some .typeOf
  | _ => none

/-- Whether a token may name a property: a name, a keyword, or a string that begins like one. -/
def namesProperty (t : Token) : Bool :=
  match t.text.toList with
  | [] => false
  | c :: _ => Text.isLetter c || c = '_' || c = '$'

/-- The literal that a token stands for by itself. -/
def literalOf? (t : Token) : Option (Except ParseError Expr) :=
  match t.kind with
  | .int =>
    match Decimal.int? t.text.toList with
    | some n => some (.ok (.literal (.int n.toNat)))
    | none => some (.error (.fault .value))
  | .float =>
    match Decimal.float? t.text.toList with
    | some x => some (.ok (.literal (.float x)))
    | none => some (.error (.fault .value))
  | .string => some (.ok (.literal (.string t.text)))
  | .keyword .kwTrue => some (.ok (.literal (.bool true)))
  | .keyword .kwFalse => some (.ok (.literal (.bool false)))
  | .keyword .kwNull => some (.ok (.literal .null))
  | .keyword .kwUndefined => some (.ok .undefined)
  | .ident => some (.ok (.ident t.text))
  | _ => none

/-- One expression stands for itself, several for a sequence. -/
def Expr.ofItems (first : Expr) (others : List Expr) : Expr :=
  if others.isEmpty then first else .sequence (first :: others)

mutual

def parseSequence (ts : List Token) : Except ParseError (Parsed Expr ts) := do
  let first ← parseOne ts
  have := first.shorter
  let others ← parseMore first.rest
  have := others.noLonger
  return ⟨Expr.ofItems first.value others.value, others.rest, by omega⟩
termination_by (ts.length, 12)

/-- The expressions behind commas. -/
def parseMore (ts : List Token) : Except ParseError (Followed (List Expr) ts) :=
  match ts with
  | [] => .ok ⟨[], [], by simp⟩
  | t :: rest =>
    if t.kind = .symbol .comma then do
      let next ← parseOne rest
      have := next.shorter
      let others ← parseMore next.rest
      have := others.noLonger
      return ⟨next.value :: others.value, others.rest, by simp; omega⟩
    else .ok ⟨[], t :: rest, by simp⟩
termination_by (ts.length, 0)

/-- One expression, without the comma operator. -/
def parseOne (ts : List Token) : Except ParseError (Parsed Expr ts) := do
  let condition ← parseLevel 0 ts
  have := condition.shorter
  let ⟨asks, afterMark, _⟩ := skipSymbol .question condition.rest
  if asks then
    let thenExpr ← parseOne afterMark
    have := thenExpr.shorter
    let colon ← expectToken (.symbol .colon) thenExpr.rest
    have := colon.shorter
    let elseExpr ← parseOne colon.rest
    have := elseExpr.shorter
    return ⟨.conditional condition.value thenExpr.value elseExpr.value, elseExpr.rest, by omega⟩
  else return condition
termination_by (ts.length, 11)

/-- An operand and the operations of its level, grouped from the left. -/
def parseLevel (level : Nat) (ts : List Token) : Except ParseError (Parsed Expr ts) :=
  if level < 6 then do
    let first ← parseLevel (level + 1) ts
    have := first.shorter
    let chain ← parseChain level first.value first.rest
    have := chain.noLonger
    return ⟨chain.value, chain.rest, by omega⟩
  else parseUnary ts
termination_by (ts.length, 4 + (6 - level))

/-- The operators and operands of a level behind its first operand. -/
def parseChain (level : Nat) (left : Expr) (ts : List Token) :
    Except ParseError (Followed Expr ts) :=
  match ts with
  | [] => .ok ⟨left, [], by simp⟩
  | t :: rest =>
    match operatorAt level t.kind with
    | none => .ok ⟨left, t :: rest, by simp⟩
    | some op => do
      let right ← parseLevel (level + 1) rest
      have := right.shorter
      let chain ← parseChain level (.binary op left right.value) right.rest
      have := chain.noLonger
      return ⟨chain.value, chain.rest, by simp; omega⟩
termination_by (ts.length, 0)

def parseUnary (ts : List Token) : Except ParseError (Parsed Expr ts) :=
  match ts with
  | [] => parsePostfix []
  | t :: rest =>
    match unaryOperator t.kind with
    | some op => do
      let operand ← parseUnary rest
      have := operand.shorter
      return ⟨.unary op operand.value, operand.rest, by simp; omega⟩
    | none => parsePostfix (t :: rest)
termination_by (ts.length, 3)

def parsePostfix (ts : List Token) : Except ParseError (Parsed Expr ts) := do
  let first ← parsePrimary ts
  have := first.shorter
  let all ← parseAccesses first.value first.rest
  have := all.noLonger
  return ⟨all.value, all.rest, by omega⟩
termination_by (ts.length, 2)

/-- The property accesses and calls behind an expression. -/
def parseAccesses (target : Expr) (ts : List Token) : Except ParseError (Followed Expr ts) :=
  match ts with
  | [] => .ok ⟨target, [], by simp⟩
  | t :: rest =>
    match t.kind with
    | .symbol .dot =>
      match rest with
      | [] => .error (.propertyName (current []))
      | name :: after =>
        if namesProperty name then do
          have := beyond_noLonger name after
          let all ← parseAccesses (.member target name.text) (beyond name after)
          have := all.noLonger
          return ⟨all.value, all.rest, by simp; omega⟩
        else .error (.propertyName name)
    | .symbol .lbracket => do
      let index ← parseSequence rest
      have := index.shorter
      let close ← expectToken (.symbol .rbracket) index.rest
      have := close.shorter
      let all ← parseAccesses (.index target index.value) close.rest
      have := all.noLonger
      return ⟨all.value, all.rest, by simp; omega⟩
    | .symbol .lparen => do
      let args ← parseArgs rest
      have := args.shorter
      let all ← parseAccesses (.call target args.value) args.rest
      have := all.noLonger
      return ⟨all.value, all.rest, by simp; omega⟩
    | _ => .ok ⟨target, t :: rest, by simp⟩
termination_by (ts.length, 1)

/-- Arguments and the closing parenthesis. -/
def parseArgs (ts : List Token) : Except ParseError (Parsed (List Expr) ts) := do
  let close := skipSymbol .rparen ts
  if h : close.rest.length < ts.length then return ⟨[], close.rest, h⟩
  else
    let first ← parseOne ts
    have := first.shorter
    let others ← parseMore first.rest
    have := others.noLonger
    let close ← expectToken (.symbol .rparen) others.rest
    have := close.shorter
    return ⟨first.value :: others.value, close.rest, by omega⟩
termination_by (ts.length, 12)

def parsePrimary (ts : List Token) : Except ParseError (Parsed Expr ts) :=
  match ts with
  | [] => .error (.unexpected (current []))
  | t :: rest =>
    match t.kind with
    | .symbol .lparen => do
      let inner ← parseSequence rest
      have := inner.shorter
      let close ← expectToken (.symbol .rparen) inner.rest
      have := close.shorter
      return ⟨inner.value, close.rest, by simp; omega⟩
    | .symbol .lbracket => do
      let items ← parseItems rest
      have := items.noLonger
      let close ← expectToken (.symbol .rbracket) items.rest
      have := close.shorter
      return ⟨.array items.value, close.rest, by simp; omega⟩
    | .symbol .lbrace => do
      let entries ← parseEntries rest
      have := entries.noLonger
      let close ← expectToken (.symbol .rbrace) entries.rest
      have := close.shorter
      return ⟨.object entries.value, close.rest, by simp; omega⟩
    | .keyword .kwNew => do
      -- a constructor behaves like a plain call
      let inner ← parsePostfix rest
      have := inner.shorter
      return ⟨inner.value, inner.rest, by simp; omega⟩
    | _ =>
      match literalOf? t with
      | some (.ok e) => .ok ⟨e, rest, by simp⟩
      | some (.error e) => .error e
      | none => .error (.unexpected t)
termination_by (ts.length, 1)

/-- The items of an array up to its bracket; a comma may stand behind the last one. -/
def parseItems (ts : List Token) : Except ParseError (Followed (List Expr) ts) := do
  if (current ts).kind = .symbol .rbracket then return ⟨[], ts, by simp⟩
  else
    let first ← parseOne ts
    have := first.shorter
    let ⟨continues, afterComma, _⟩ := skipSymbol .comma first.rest
    if continues then
      let others ← parseItems afterComma
      have := others.noLonger
      return ⟨first.value :: others.value, others.rest, by omega⟩
    else return ⟨[first.value], first.rest, by omega⟩
termination_by (ts.length, 12)

/-- The entries of an object up to its brace; a name alone stands for the binding of that name. -/
def parseEntries (ts : List Token) : Except ParseError (Followed (List (String × Expr)) ts) :=
  match ts with
  | [] => .error (.objectKey (current []))
  | key :: rest =>
    if key.kind = .symbol .rbrace then .ok ⟨[], key :: rest, by simp⟩
    else if key.kind ≠ .ident && key.kind ≠ .string && key.kind ≠ .int then
      .error (.objectKey key)
    else do
      let ⟨valued, afterColon, _⟩ := skipSymbol .colon rest
      let entry : Followed Expr rest ←
        if valued then do
          let value ← parseOne afterColon
          have := value.shorter
          pure ⟨value.value, value.rest, by omega⟩
        else if key.kind = .ident then pure ⟨.ident key.text, rest, by simp⟩
        else .error (.missingColon key)
      have := entry.noLonger
      let ⟨continues, afterComma, _⟩ := skipSymbol .comma entry.rest
      if continues then
        let others ← parseEntries afterComma
        have := others.noLonger
        return ⟨(key.text, entry.value) :: others.value, others.rest, by simp; omega⟩
      else return ⟨[(key.text, entry.value)], entry.rest, by simp; omega⟩
termination_by (ts.length, 12)

end

end Script
end Vitrine
