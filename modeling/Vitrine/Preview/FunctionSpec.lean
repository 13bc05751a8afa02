import Vitrine.Preview.Field
import Vitrine.Script.Lexer

/-!
The structured description of a function: parameters, statements and either what it returns or what
it throws.
-/
namespace Vitrine
namespace Preview

structure FunctionSpec where
  parameters : List String
  bodyStatements : Option String
  returnExpressions : List String
  throwsMessage : Option String

/-- The rest of a text without one line feed at its end. -/
def dropFinalNewline (cs : List Char) : List Char :=
  if cs.getLast? = some '\n' then cs.dropLast else cs

/-- Whether a text is a parameter name, a line feed behind it being passed over. -/
def isParameterName (s : String) : Bool :=
  match dropFinalNewline s.toList with
  | c :: cs => Script.isNameStart c && cs.all Script.isNameChar
  | [] => false

namespace FunctionSpec

def checkParameters (names : List String) : Checked (List String) :=
  match names.find? fun name => !isParameterName name with
  | some name => Checked.fail (.parameterName name)
  | none => .valid names

/-- A number as the text of an expression. -/
def expressionOfNumber (v : Data) : Option (Except Fault String) :=
  match v with
  | .int _ | .float _ => some v.shown
  | _ => none

/-- The numbers among some values as texts. -/
def coerceNumbers : List Data → Except Fault (List Data)
  | [] => .ok []
  | v :: vs => do
    let w ← match expressionOfNumber v with
      | some r => do pure (.str (← r))
      | none => pure v
    return w :: (← coerceNumbers vs)

/-- The expressions to return: a list, or one alone, a number standing for its text. -/
def returnsOf (v : Data) : Checked (List String) :=
  match v with
  | .null => .valid []
  | .str s => .valid [s]
  | .int _ | .float _ => written (v.shown.map fun s => [.str s])
  | .array _ items => written (coerceNumbers items)
  | v => itemsOf textOf v
where
  written : Except Fault (List Data) → Checked (List String)
    | .ok items => itemsOf textOf (.array () items)
    | .error _ => Checked.fail .unwritable

/-- The fields of a specification. -/
def ofEntries (entries : List (Key × Data)) : Checked FunctionSpec :=
  FunctionSpec.mk
    <$> field entries ["parameters"] (.valid [])
      (fun v => (itemsOf textOf v).andThen checkParameters)
    <*> field entries ["bodyStatements", "body_statements"] (.valid none) optionalText
    <*> field entries ["returnExpressions", "return_expressions"] (.valid []) returnsOf
    <*> field entries ["throwsMessage", "throws_message"] (.valid none) optionalText

/-- The specification that a value is. A function that throws returns nothing. -/
def ofValue (v : Data) : Checked FunctionSpec :=
  match v with
  | .object _ entries =>
    (ofEntries entries).andThen fun spec =>
      if spec.throwsMessage.isSome && !spec.returnExpressions.isEmpty then
        Checked.fail .throwAndReturn
      else .valid spec
  | _ => Checked.fail .specification

end FunctionSpec

end Preview
end Vitrine
