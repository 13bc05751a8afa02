import Vitrine.Log
import Vitrine.Script.Equality
import Vitrine.Script.Identity

/-!
What evaluation computes with: values with identities, the failures it may end in, and the trace
that it leaves, which survives a failure.
-/
namespace Vitrine
namespace Script

/-- A value during evaluation. -/
abbrev Cell := Value Identity

/-- Names with their values; a later binding of a name replaces an earlier one in its place. -/
abbrev Scope := List (String × Cell)

inductive EvalError where
  | notDefined (name : String)
  /-- A property of null or undefined was read. -/
  | unreadable (target key : String)
  | notFunction (callee : String)
  /-- A called function ran into a fault. -/
  | faultIn (callee : String) (fault : Fault)
  deriving DecidableEq, Repr

def EvalError.message : EvalError → String
  | .notDefined name => name ++ " is not defined"
  | .unreadable target key => "Cannot read properties of " ++ target ++ " (reading " ++ key ++ ")"
  | .notFunction callee => callee ++ " is not a function"
  | .faultIn callee fault => callee ++ ": <" ++ fault.label ++ ">"

inductive Failure where
  | error (e : EvalError)
  /-- A value was thrown; the message is its text. -/
  | thrown (value : Cell) (message : String)
  /-- A prop function failed. -/
  | function (message : String)
  | fault (f : Fault)

/-- The console entries so far, and the number of identities given out. -/
structure Trace where
  logs : List LogEntry
  next : Nat

def Trace.start : Trace := ⟨[], 0⟩

abbrev Eval := ExceptT Failure (StateM Trace)

namespace Eval

def fail {α : Type} (e : EvalError) : Eval α := throw (.error e)

def fault {α : Type} (f : Fault) : Eval α := throw (.fault f)

def lift {α : Type} : Except Fault α → Eval α
  | .ok a => pure a
  | .error f => fault f

/-- An identity that no other value has. -/
def fresh : Eval Identity := do
  let t ← get
  set { t with next := t.next + 1 }
  return .cell t.next

def log (level : Level) (text : String) : Eval Unit :=
  modify fun t => { t with logs := t.logs ++ [⟨level, text⟩] }

def newArray (items : List Cell) : Eval Cell := do return .array (← fresh) items

def newObject (entries : List (Key × Cell)) : Eval Cell := do return .object (← fresh) entries

/-- Ends with a thrown value. Its message is its `message` property, or else its own text. -/
def throwValue {α : Type} (v : Cell) : Eval α := do
  let shown := match v with
    | .object _ entries => (Entries.get? "message" entries).getD v
    | _ => v
  throw (.thrown v (← lift shown.display))

end Eval

/-- The scope with a name bound. -/
def Scope.set (name : String) (v : Cell) : Scope → Scope
  | [] => [(name, v)]
  | (n, w) :: s => if n = name then (n, v) :: s else (n, w) :: Scope.set name v s

def Scope.get? (name : String) (s : Scope) : Option Cell := s.lookup name

end Script
end Vitrine
