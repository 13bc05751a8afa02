import Vitrine.Script.Parser

/-!
Statements and functions, and the entry points that read a whole text.

    function    = "function" name? params block | params "=>" body | name "=>" body
    params      = "(" (name ("," name)*)? ")"
    body        = block | expr
    block       = "{" statement* "}"
    statement   = ("let" | "const" | "var") name ("=" expr)? ";"?
                | name "=" expr ";"? | "return" sequence? ";"? | "throw" sequence ";"?
                | sequence ";"?
-/
namespace Vitrine
namespace Script

/-- The word that introduces a declaration, if the token is one. -/
def declareWord? (kind : Kind) : Option DeclareWord :=
  match kind with
  | .keyword .kwLet => some .letWord
  | .keyword .kwConst => some .constWord
  | .keyword .kwVar => some .varWord
  | _ => none

/-- Whether a statement ends in front of this token. -/
def endsStatement (kind : Kind) : Bool :=
  kind = .symbol .semicolon || kind = .symbol .rbrace || kind = .eof

/-- The initial value of a declaration. -/
def parseInitial (ts : List Token) : Except ParseError (Followed (Option Expr) ts) := do
  let ⟨assigned, rest, hrest⟩ := skipSymbol .assign ts
  if assigned then
    let value ← parseOne rest
    return ⟨some value.value, value.rest, value.noLonger_of_le hrest⟩
  else return ⟨none, ts, noLonger_refl ts⟩

/-- A statement without the semicolon behind it. -/
def parseBareStmt (ts : List Token) : Except ParseError (Parsed Stmt ts) :=
  match ts with
  | [] => .error (.unexpected (current []))
  | t :: rest =>
    match declareWord? t.kind with
    | some word => do
      let name ← expectToken .ident rest
      let value ← parseInitial name.rest
      return ⟨.declare word name.value.text value.value, value.rest,
        Nat.lt_of_le_of_lt value.noLonger (name.shorter_cons t)⟩
    | none =>
      if t.kind = .keyword .kwReturn then
        if endsStatement (current rest).kind then .ok ⟨.ret none, rest, shorter_tail t rest⟩
        else do
          let value ← parseSequence rest
          return ⟨.ret (some value.value), value.rest, value.shorter_cons t⟩
      else if t.kind = .keyword .kwThrow then do
        let value ← parseSequence rest
        return ⟨.throw value.value, value.rest, value.shorter_cons t⟩
      else if t.kind = .ident && (current rest).kind = .symbol .assign then do
        let value ← parseOne rest.tail
        return ⟨.assign t.text value.value, value.rest, value.shorter_cons_of_tail t⟩
      else do
        let value ← parseSequence (t :: rest)
        return ⟨.expr value.value, value.rest, value.shorter⟩

def parseStmt (ts : List Token) : Except ParseError (Parsed Stmt ts) := do
  let stmt ← parseBareStmt ts
  have := stmt.shorter
  let ⟨_, rest, _⟩ := skipSymbol .semicolon stmt.rest
  return ⟨stmt.value, rest, by omega⟩

/-- Statements up to a given kind of token or the end of input; semicolons alone are skipped. -/
def parseStmts (stop : Kind) (ts : List Token) : Except ParseError (Followed (List Stmt) ts) :=
  match ts with
  | [] => .ok ⟨[], [], by simp⟩
  | t :: rest =>
    if t.kind = stop || t.kind = .eof then .ok ⟨[], t :: rest, by simp⟩
    else if t.kind = .symbol .semicolon then do
      let more ← parseStmts stop rest
      have := more.noLonger
      return ⟨more.value, more.rest, by simp; omega⟩
    else do
      let stmt ← parseStmt (t :: rest)
      have := stmt.shorter
      let more ← parseStmts stop stmt.rest
      have := more.noLonger
      return ⟨stmt.value :: more.value, more.rest, by omega⟩
termination_by ts.length
decreasing_by all_goals (simp_all; try omega)

def parseBlock (ts : List Token) : Except ParseError (Parsed (List Stmt) ts) := do
  let opening ← expectToken (.symbol .lbrace) ts
  have := opening.shorter
  let body ← parseStmts (.symbol .rbrace) opening.rest
  have := body.noLonger
  let closing ← expectToken (.symbol .rbrace) body.rest
  have := closing.shorter
  return ⟨body.value, closing.rest, by omega⟩

/-- The names behind commas. -/
def parseMoreNames (ts : List Token) : Except ParseError (Followed (List String) ts) :=
  match ts with
  | [] => .ok ⟨[], [], by simp⟩
  | t :: rest =>
    if t.kind = .symbol .comma then
      match rest with
      | [] => .error (.expected .ident (current []))
      | name :: after =>
        if name.kind = .ident then do
          let more ← parseMoreNames after
          have := more.noLonger
          return ⟨name.text :: more.value, more.rest, by simp; omega⟩
        else .error (.expected .ident name)
    else .ok ⟨[], t :: rest, by simp⟩

def parseParams (ts : List Token) : Except ParseError (Parsed (List String) ts) := do
  let opening ← expectToken (.symbol .lparen) ts
  have := opening.shorter
  if (current opening.rest).kind = .symbol .rparen then
    let closing ← expectToken (.symbol .rparen) opening.rest
    have := closing.shorter
    return ⟨[], closing.rest, by omega⟩
  else
    let first ← expectToken .ident opening.rest
    have := first.shorter
    let more ← parseMoreNames first.rest
    have := more.noLonger
    let closing ← expectToken (.symbol .rparen) more.rest
    have := closing.shorter
    return ⟨first.value.text :: more.value, closing.rest, by omega⟩

/-- The body of an arrow function; an expression stands for its return. -/
def parseArrowBody (ts : List Token) : Except ParseError (Parsed (List Stmt) ts) :=
  if (current ts).kind = .symbol .lbrace then parseBlock ts
  else do
    let value ← parseOne ts
    return ⟨[.ret (some value.value)], value.rest, value.shorter⟩

/-- The parameters of an arrow function: a name alone or a list in parentheses. -/
def parseArrowParams (ts : List Token) : Except ParseError (Parsed (List String) ts) :=
  if (current ts).kind = .ident && (upcoming ts).kind = .symbol .arrow then do
    let name ← expectToken .ident ts
    return ⟨[name.value.text], name.rest, name.shorter⟩
  else parseParams ts

/-- The tokens behind the name of a function, if it has one. -/
def skipName : (ts : List Token) → Followed Unit ts
  | [] => ⟨(), [], noLonger_nil⟩
  | t :: ts =>
    if t.kind = .ident then ⟨(), ts, noLonger_tail t ts⟩ else ⟨(), t :: ts, noLonger_cons t ts⟩

def parseFunctionAt (ts : List Token) : Except ParseError (Parsed FunctionDef ts) :=
  let t := current ts
  if t.kind = .ident && t.text = "async" then .error (.asyncFunction t)
  else if t.kind = .keyword .kwFunction then do
    let word ← expectToken (.keyword .kwFunction) ts
    have := word.shorter
    let ⟨_, afterName, _⟩ := skipName word.rest
    let params ← parseParams afterName
    have := params.shorter
    let body ← parseBlock params.rest
    have := body.shorter
    return ⟨⟨params.value, body.value⟩, body.rest, by omega⟩
  else do
    let params ← parseArrowParams ts
    have := params.shorter
    let arrow ← expectToken (.symbol .arrow) params.rest
    have := arrow.shorter
    let body ← parseArrowBody arrow.rest
    have := body.shorter
    return ⟨⟨params.value, body.value⟩, body.rest, by omega⟩

/-! ## Whole texts -/

def expectEnd (ts : List Token) : Except ParseError Unit :=
  if (current ts).kind = .eof then .ok () else .error (.trailing (current ts))

def tokens (source : String) : Except ParseError (List Token) :=
  match tokenize source with
  | .ok ts => .ok ts
  | .error (.fault f) => .error (.fault f)
  | .error e => .error (.lexical e)

/-- The expression that a text is. -/
def parseExpr (source : String) : Except ParseError Expr := do
  let e ← parseSequence (← tokens source)
  expectEnd e.rest
  return e.value

/-- The statements that a text is made of. -/
def parseStatements (source : String) : Except ParseError (List Stmt) := do
  let stmts ← parseStmts .eof (← tokens source)
  expectEnd stmts.rest
  return stmts.value

/-- The function that a text is. -/
def parseFunction (source : String) : Except ParseError FunctionDef := do
  let f ← parseFunctionAt (← tokens source)
  expectEnd (skipSymbol .semicolon f.rest).rest
  return f.value

end Script
end Vitrine
