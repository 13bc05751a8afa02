import Vitrine.Decimal.Layout

/-!
Expressions and statements of prop functions.
-/
namespace Vitrine
namespace Script

inductive BinaryOp where
  | add | sub | mul | div | mod
  | eq | ne | strictEq | strictNe | lt | gt | le | ge
  | and | or | nullish
  deriving DecidableEq, Repr

def BinaryOp.text : BinaryOp → String
  | .add => "+"
  | .sub => "-"
  | .mul => "*"
  | .div => "/"
  | .mod => "%"
  | .eq => "=="
  | .ne => "!="
  | .strictEq => "==="
  | .strictNe => "!=="
  | .lt => "<"
  | .gt => ">"
  | .le => "<="
  | .ge => ">="
  | .and => "&&"
  | .or => "||"
  | .nullish => "??"

inductive UnaryOp where
  | neg | pos | not | typeOf
  deriving DecidableEq, Repr

def UnaryOp.text : UnaryOp → String
  | .neg => "-"
  | .pos => "+"
  | .not => "!"
  | .typeOf => "typeof"

inductive Literal where
  | null
  | bool (b : Bool)
  | int (n : Nat)
  | float (x : Float)
  | string (s : String)

inductive Expr where
  | literal (l : Literal)
  | undefined
  | ident (name : String)
  | member (target : Expr) (name : String)
  | index (target key : Expr)
  | call (callee : Expr) (args : List Expr)
  | binary (op : BinaryOp) (left right : Expr)
  | unary (op : UnaryOp) (operand : Expr)
  | conditional (condition thenExpr elseExpr : Expr)
  | array (items : List Expr)
  | object (entries : List (String × Expr))
  /-- The comma operator: all items are evaluated, the last one counts. -/
  | sequence (items : List Expr)

/-- The word that introduces a declaration. -/
inductive DeclareWord where
  | letWord | constWord | varWord
  deriving DecidableEq, Repr

def DeclareWord.text : DeclareWord → String
  | .letWord => "let"
  | .constWord => "const"
  | .varWord => "var"

inductive Stmt where
  | declare (word : DeclareWord) (name : String) (value : Option Expr)
  | assign (name : String) (value : Expr)
  | expr (e : Expr)
  | ret (value : Option Expr)
  | throw (value : Expr)

/-- A function: its parameters and the statements of its body. -/
structure FunctionDef where
  params : List String
  body : List Stmt

/-- The words for doubles in the text of an expression. -/
def literalSpecials : Decimal.Specials := ⟨"nan", "inf"⟩

def Literal.text : Literal → String
  | .null => "null"
  | .bool b => if b then "true" else "false"
  | .int n => Decimal.intText n
  | .float x => Decimal.floatText literalSpecials x
  | .string s => "\"" ++ s ++ "\""

/-! ## The text of an expression

The text names an expression in messages. Binary operations and conditionals stand in parentheses;
the text need not read back. -/

mutual

def Expr.text : Expr → String
  | .literal l => l.text
  | .undefined => "undefined"
  | .ident name => name
  | .member target name => target.text ++ "." ++ name
  | .index target key => target.text ++ "[" ++ key.text ++ "]"
  | .call callee args => callee.text ++ "(" ++ Expr.listText args ++ ")"
  | .binary op left right => "(" ++ left.text ++ " " ++ op.text ++ " " ++ right.text ++ ")"
  | .unary .typeOf operand => "typeof " ++ operand.text
  | .unary op operand => op.text ++ operand.text
  | .conditional c t e => "(" ++ c.text ++ " ? " ++ t.text ++ " : " ++ e.text ++ ")"
  | .array items => "[" ++ Expr.listText items ++ "]"
  | .object entries => "\x7b" ++ Expr.entriesText entries ++ "\x7d"
  | .sequence items => Expr.listText items

def Expr.listText : List Expr → String
  | [] => ""
  | [e] => e.text
  | e :: es => e.text ++ ", " ++ Expr.listText es

def Expr.entriesText : List (String × Expr) → String
  | [] => ""
  | [(key, e)] => key ++ ": " ++ e.text
  | (key, e) :: es => key ++ ": " ++ e.text ++ ", " ++ Expr.entriesText es

end

end Script
end Vitrine
