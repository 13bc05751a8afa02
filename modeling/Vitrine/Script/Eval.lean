import Vitrine.Script.Builtin

/-!
Evaluation. Expressions see the names of their scope and the built-in names and nothing else;
statements change the scope, which outlives a failure.
-/
namespace Vitrine
namespace Script

/-! ## Expressions -/

/-- The value of a name: the scope comes before the built-in names. -/
def lookUp? (scope : Scope) (name : String) : Option Cell :=
  (scope.get? name).or (globals.get? name)

def lookUp (scope : Scope) (name : String) : Eval Cell :=
  match lookUp? scope name with
  | some v => pure v
  | none => Eval.fail (.notDefined name)

/-- An item by its number; there is nothing outside the bounds. -/
def itemAt (items : List Cell) (n : Number) : Eval Cell := do
  let i ← Eval.lift n.toInt
  return if i < 0 then .undefined else (items[i.toNat]?).getD .undefined

/-- A property of a text or an array: its length, an item or a method. -/
def itemProperty (target : Cell) (items : List Cell) (methods : List (String × Method)) :
    Cell → Eval Cell
  | .str name =>
    if name = "length" then pure (.int items.length)
    else
      match methods.lookup name with
      | some m => do return .method (← Eval.fresh) target m
      | none => pure .undefined
  | .int n => itemAt items (.int n)
  | .float x => itemAt items (.float x)
  | _ => pure .undefined

/-- A property of a value. Only objects, arrays and texts have properties; to ask null or undefined
for one is an error. -/
def property (target key : Cell) : Eval Cell :=
  match target with
  | .null => do Eval.fail (.unreadable "null" (← Eval.lift key.shown))
  | .undefined => do Eval.fail (.unreadable "undefined" (← Eval.lift key.shown))
  | .object _ entries => do
    return (Entries.get? (← Eval.lift key.display) entries).getD .undefined
  | .array _ items => itemProperty target items arrayMethods key
  | .str s => itemProperty target (s.toList.map fun c => .str c.toString) stringMethods key
  | _ => pure .undefined

def joinsAsText : Cell → Bool
  | .str _ | .array .. | .object .. => true
  | _ => false

/-- The sum: texts if one side is a text, an array or an object, and numbers otherwise. -/
def plus (a b : Cell) : Eval Cell :=
  if joinsAsText a || joinsAsText b then do
    let s ← Eval.lift a.display
    return .str (s ++ (← Eval.lift b.display))
  else numberResult ((toNumber a).add (toNumber b))

/-- A comparison: of two texts by their characters, otherwise of numbers, where NaN is in no
order. -/
def comparison (onTexts : String → String → Bool) (onNumbers : Number → Number → Bool)
    (a b : Cell) : Eval Cell :=
  match a, b with
  | .str s, .str t => pure (.bool (onTexts s t))
  | a, b => do
    let m := toNumber a
    let n := toNumber b
    if ← Eval.lift m.isNaN then return .bool false
    else if ← Eval.lift n.isNaN then return .bool false
    else return .bool (onNumbers m n)

/-- An operation on two values. The operators that may leave out their right side are not among
these. -/
def combine (op : BinaryOp) (a b : Cell) : Eval Cell :=
  match op with
  | .eq => pure (.bool (looseEquals a b))
  | .ne => pure (.bool !(looseEquals a b))
  | .strictEq => pure (.bool (strictEquals a b))
  | .strictNe => pure (.bool !(strictEquals a b))
  | .add => plus a b
  | .sub => numberResult ((toNumber a).sub (toNumber b))
  | .mul => numberResult ((toNumber a).mul (toNumber b))
  | .div => numberResult ((toNumber a).div (toNumber b))
  | .mod => numberResult ((toNumber a).mod (toNumber b))
  | .lt => comparison (fun s t => s < t) Number.lt a b
  | .gt => comparison (fun s t => t < s) (fun m n => n.lt m) a b
  | .le => comparison (fun s t => !(decide (t < s))) (fun m n => !(n.lt m)) a b
  | .ge => comparison (fun s t => !(decide (s < t))) (fun m n => !(m.lt n)) a b
  | .and | .or | .nullish => pure b

/-- Whether an operator leaves out its right side for this left side, which then is the result. -/
def isSettled (op : BinaryOp) (left : Cell) : Bool :=
  match op with
  | .and => !left.truthy
  | .or => left.truthy
  | .nullish => !(isNullish left)
  | _ => false

def applyUnary (op : UnaryOp) (v : Cell) : Cell :=
  match op with
  | .neg => (toNumber v).neg.toValue
  | .pos => (toNumber v).toValue
  | .not => .bool !v.truthy
  | .typeOf => .str v.typeName

/-- A call's faults as errors that name what was called. -/
def Eval.naming {α : Type} (callee : Expr) (call : Eval α) : Eval α :=
  tryCatch call fun
    | .fault .value => Eval.fail (.faultIn callee.text .value)
    | .fault .overflow => Eval.fail (.faultIn callee.text .overflow)
    | .fault .type => Eval.fail (.faultIn callee.text .type)
    | failure => throw failure

mutual

def evalExpr (invoke : Invoke) (scope : Scope) : Expr → Eval Cell
  | .literal .null => pure .null
  | .literal (.bool b) => pure (.bool b)
  | .literal (.int n) => pure (.int n)
  | .literal (.float x) => pure (.float x)
  | .literal (.string s) => pure (.str s)
  | .undefined => pure .undefined
  | .ident name => lookUp scope name
  | .member target name => do property (← evalExpr invoke scope target) (.str name)
  | .index target key => do
    let t ← evalExpr invoke scope target
    property t (← evalExpr invoke scope key)
  | .call callee args => do
    let f ← evalExpr invoke scope callee
    if f.isCallable then
      let vs ← evalItems invoke scope args
      Eval.naming callee (call invoke f vs)
    else Eval.fail (.notFunction callee.text)
  | .binary op left right => do
    let a ← evalExpr invoke scope left
    if isSettled op a then return a
    else combine op a (← evalExpr invoke scope right)
  | .unary op operand => do
    match op, operand with
    | .typeOf, .ident name =>
      return .str ((lookUp? scope name).getD .undefined).typeName
    | op, operand => return applyUnary op (← evalExpr invoke scope operand)
  | .conditional c t e => do
    if (← evalExpr invoke scope c).truthy then evalExpr invoke scope t
    else evalExpr invoke scope e
  | .array items => do Eval.newArray (← evalItems invoke scope items)
  | .object entries => do Eval.newObject (Entries.ofList (← evalEntries invoke scope entries))
  | .sequence items => do
    return ((← evalItems invoke scope items).getLast?).getD .undefined

def evalItems (invoke : Invoke) (scope : Scope) : List Expr → Eval (List Cell)
  | [] => pure []
  | e :: es => do
    let v ← evalExpr invoke scope e
    return v :: (← evalItems invoke scope es)

def evalEntries (invoke : Invoke) (scope : Scope) :
    List (String × Expr) → Eval (List (Key × Cell))
  | [] => pure []
  | (key, e) :: es => do
    let v ← evalExpr invoke scope e
    return (.str key, v) :: (← evalEntries invoke scope es)

end

/-! ## Statements -/

/-- Statements run on a scope that outlives a failure. -/
abbrev Run := ExceptT Failure (StateT Scope (StateM Trace))

def Run.ofEval {α : Type} (e : Scope → Eval α) : Run α :=
  ExceptT.mk fun scope => do
    let r ← (e scope).run
    return (r, scope)

def Run.set (name : String) (v : Cell) : Run Unit := modify (Scope.set name v)

/-- Runs statements up to the first that returns or throws. -/
def runStmts (invoke : Invoke) : List Stmt → Run Cell
  | [] => pure .undefined
  | .ret none :: _ => pure .undefined
  | .ret (some e) :: _ => Run.ofEval fun scope => evalExpr invoke scope e
  | .throw e :: _ =>
    Run.ofEval fun scope => do Eval.throwValue (← evalExpr invoke scope e)
  | .declare _ name none :: rest => do
    Run.set name .undefined
    runStmts invoke rest
  | .declare _ name (some e) :: rest => do
    Run.set name (← Run.ofEval fun scope => evalExpr invoke scope e)
    runStmts invoke rest
  | .assign name e :: rest => do
    Run.set name (← Run.ofEval fun scope =>
      if (scope.get? name).isSome then evalExpr invoke scope e
      else Eval.fail (.notDefined name))
    runStmts invoke rest
  | .expr e :: rest => do
    let _ ← Run.ofEval fun scope => evalExpr invoke scope e
    runStmts invoke rest

/-! ## Functions -/

/-- The scope of a function: its parameters and nothing else. Of parameters with one name the last
counts; a missing argument is undefined. -/
def bindParams (params : List String) (args : List Cell) : Scope :=
  params.zipIdx.foldl (fun scope p => scope.set p.1 ((args[p.2]?).getD .undefined)) []

/-- The failure of a body as the failure of its function. -/
def Failure.inFunction (source : String) : Failure → Failure
  | .thrown _ message => .function message
  | .error e => .function (e.message ++ " in " ++ source)
  | f => f

/-- The message of a function whose body lies outside the grammar. -/
def missingBodyMessage (source : String) : String :=
  "Function cannot be evaluated outside the browser: " ++ source

/-- Runs a function whose calls nest at most `depth` deep. -/
def invokeWithin : Nat → Invoke
  | 0, _, _ => Eval.fault .depth
  | depth + 1, f, args =>
    match f.body with
    | none => throw (.function (missingBodyMessage f.source))
    | some body =>
      tryCatch
        (ExceptT.mk do
          let (r, _) ← (runStmts (invokeWithin depth) body).run (bindParams f.params args)
          return r)
        fun failure => throw (failure.inFunction f.source)

/-- How deep calls of functions may nest. -/
def depthLimit : Nat := 190

def invoke : Invoke := invokeWithin depthLimit

/-- The value of an expression. -/
def evaluate (e : Expr) (scope : Scope) : Eval Cell := evalExpr invoke scope e

/-- What statements return; without a return that is undefined. -/
def execute (stmts : List Stmt) : Run Cell := runStmts invoke stmts

end Script
end Vitrine
