/-!
Tokens of the expression language.
-/
namespace Vitrine
namespace Script

inductive Keyword where
  | kwTrue | kwFalse | kwNull | kwUndefined
  | kwLet | kwConst | kwVar | kwReturn | kwThrow | kwFunction | kwNew | kwTypeof
  deriving DecidableEq, Repr

inductive Symbol where
  | plus | minus | star | slash | percent
  | eq | ne | strictEq | strictNe | lt | gt | le | ge
  | and | or | nullish | not | assign | arrow | question
  | lparen | rparen | lbracket | rbracket | lbrace | rbrace
  | comma | dot | colon | semicolon
  deriving DecidableEq, Repr

inductive Kind where
  | int
  | float
  | string
  | ident
  | keyword (k : Keyword)
  | symbol (s : Symbol)
  | eof
  deriving DecidableEq, Repr

/-- A token: its kind, its text and the position of its first character. The text of a string is
its content without quotes and escapes. -/
structure Token where
  kind : Kind
  text : String
  pos : Nat
  deriving DecidableEq, Repr

def keywordTable : List (String × Keyword) := [
  ("true", .kwTrue), ("false", .kwFalse), ("null", .kwNull), ("undefined", .kwUndefined),
  ("let", .kwLet), ("const", .kwConst), ("var", .kwVar), ("return", .kwReturn),
  ("throw", .kwThrow), ("function", .kwFunction), ("new", .kwNew), ("typeof", .kwTypeof)]

/-- The symbols and their texts; no text is the beginning of a later one. -/
def symbolTable : List (String × Symbol) := [
  ("===", .strictEq), ("!==", .strictNe), ("==", .eq), ("!=", .ne), ("<=", .le), (">=", .ge),
  ("&&", .and), ("||", .or), ("??", .nullish), ("=>", .arrow), ("+", .plus), ("-", .minus),
  ("*", .star), ("/", .slash), ("%", .percent), ("<", .lt), (">", .gt), ("!", .not),
  ("=", .assign), ("?", .question), ("(", .lparen), (")", .rparen), ("[", .lbracket),
  ("]", .rbracket), ("\x7b", .lbrace), ("\x7d", .rbrace), (",", .comma), (".", .dot),
  (":", .colon), (";", .semicolon)]

def Keyword.name : Keyword → String
  | .kwTrue => "true"
  | .kwFalse => "false"
  | .kwNull => "null"
  | .kwUndefined => "undefined"
  | .kwLet => "let"
  | .kwConst => "const"
  | .kwVar => "var"
  | .kwReturn => "return"
  | .kwThrow => "throw"
  | .kwFunction => "function"
  | .kwNew => "new"
  | .kwTypeof => "typeof"

def Symbol.name : Symbol → String
  | .plus => "plus"
  | .minus => "minus"
  | .star => "star"
  | .slash => "slash"
  | .percent => "percent"
  | .eq => "eq"
  | .ne => "ne"
  | .strictEq => "strict_eq"
  | .strictNe => "strict_ne"
  | .lt => "lt"
  | .gt => "gt"
  | .le => "le"
  | .ge => "ge"
  | .and => "and"
  | .or => "or"
  | .nullish => "nullish"
  | .not => "not"
  | .assign => "assign"
  | .arrow => "arrow"
  | .question => "question"
  | .lparen => "lparen"
  | .rparen => "rparen"
  | .lbracket => "lbracket"
  | .rbracket => "rbracket"
  | .lbrace => "lbrace"
  | .rbrace => "rbrace"
  | .comma => "comma"
  | .dot => "dot"
  | .colon => "colon"
  | .semicolon => "semicolon"

/-- The name of a kind of token in messages. -/
def Kind.name : Kind → String
  | .int => "int"
  | .float => "float"
  | .string => "string"
  | .ident => "ident"
  | .keyword k => k.name
  | .symbol s => s.name
  | .eof => "eof"

end Script
end Vitrine
