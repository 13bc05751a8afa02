import Vitrine.Error
import Vitrine.Json
import Vitrine.Preview.FunctionSpec
import Vitrine.Script.Program
import Vitrine.Script.Shape

/-!
Functions made from source text or from a specification. What is written into the source and what is
run when the function is called say the same.
-/
namespace Vitrine
namespace Preview

/-- A parsed part of a function; faults of the parser pass through as faults. -/
def parsed {α : Type} (r : Except Script.ParseError α)
    (problem : Script.ParseError → ConfigProblem) (location : Location) : Result α :=
  match r with
  | .ok a => .ok a
  | .error (.fault f) => .error (.fault f)
  | .error e => .error (.config (problem e) location)

/-- The function that does nothing. -/
def noopFunction : PropFunction := ⟨[], "() => \x7b\x7d", some []⟩

/-- The location under a key of another one. -/
def Location.under (l : Location) (key : String) : Location :=
  { l with keyPath := l.keyPath.map (· ++ key) }

def parseReturns (location : Location) (position : Nat) :
    List String → Result (List Script.Expr)
  | [] => .ok []
  | text :: texts => do
    let place := location.under (".returnExpressions[" ++ Decimal.intText position ++ "]")
    let e ← parsed (Script.parseExpr text) (.invalidReturn text) place
    return e :: (← parseReturns location (position + 1) texts)

/-- The last statement of a specified function, and its line. -/
def lastStatement (spec : FunctionSpec) (location : Location) : Result (Script.Stmt × String) :=
  match spec.throwsMessage with
  | some message =>
    .ok (.throw (.literal (.string message)),
      "throw new Error(" ++ Json.quote false message ++ ");")
  | none => do
    match ← parseReturns location 0 spec.returnExpressions with
    | [] => return (.ret (some .undefined), "return;")
    | [e] => return (.ret (some e), returnLine)
    | es => return (.ret (some (.sequence es)), returnLine)
where
  returnLine : String := "return " ++ joinWith ", " spec.returnExpressions ++ ";"

/-- The function that a specification describes. -/
def buildFunction (spec : FunctionSpec) (location : Location) : Result PropFunction := do
  let bodyText := Text.strip (spec.bodyStatements.getD "")
  let body ← if bodyText = "" then pure []
    else parsed (Script.parseStatements bodyText) .invalidBody (location.under ".bodyStatements")
  let (last, line) ← lastStatement spec location
  let lines := (if bodyText = "" then [] else [bodyText]) ++ [line]
  let source := "(" ++ joinWith ", " spec.parameters ++ ") => \x7b\n" ++ joinWith "\n" lines ++
    "\n\x7d"
  return ⟨spec.parameters, source, some (body ++ [last])⟩

/-- The function that a text is. A text that looks like a function but lies outside the grammar is
kept without a body. -/
def compileFunction (source : String) (location : Location) : Result PropFunction :=
  let text := Text.strip source
  if Script.isFunctionSource text then
    match Script.parseFunction text with
    | .ok f => .ok ⟨f.params, text, some f.body⟩
    | .error (.fault f) => .error (.fault f)
    | .error _ => .ok ⟨Script.functionParams text, text, none⟩
  else .error (.config (.notFunction text) location)

end Preview
end Vitrine
