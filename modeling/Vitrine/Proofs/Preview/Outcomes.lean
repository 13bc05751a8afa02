import Vitrine.Proofs.Preview.Function
import Vitrine.Proofs.Script.Outcomes

/-!
# How making a function ends

A specification or a text becomes a function or is refused as a configuration, unless a text in it
has an obstacle that the parser faults on (`functions_settle`).
-/
namespace Vitrine
namespace Preview

open Script (EndsWell Obstacle parseExpr parseStatements parseFunction isFunctionSource)

variable {α β : Type}

/-- How an operation on configured texts may end. -/
inductive Settles (obstacle : Fault → Prop) : Result α → Prop
  | result (a : α) : Settles obstacle (.ok a)
  | refusal (problem : ConfigProblem) (location : Location) :
      Settles obstacle (.error (.config problem location))
  | fault {f : Fault} (h : obstacle f) : Settles obstacle (.error (.fault f))

namespace Settles

variable {obstacle : Fault → Prop}

theorem bind {x : Result α} {f : α → Result β} (hx : Settles obstacle x)
    (hf : ∀ a, Settles obstacle (f a)) : Settles obstacle (x >>= f) := by
  cases hx with
  | result a => exact hf a
  | refusal problem location => exact .refusal problem location
  | fault h => exact .fault h

/-- A parsed part settles as parsing it ends. -/
theorem parsed {source : String} {r : Except Script.ParseError α} (hr : EndsWell source r)
    (h : ∀ f, Obstacle source f → obstacle f) (problem : Script.ParseError → ConfigProblem)
    (location : Location) : Settles obstacle (parsed r problem location) := by
  cases hr with
  | tree a => exact .result a
  | @refusal e he =>
    cases e with
    | fault f => cases he
    | _ => exact .refusal _ location
  | fault hf => exact .fault (h _ hf)

end Settles

namespace FunctionSpec

/-- The texts of a specification that are parsed. -/
def texts (spec : FunctionSpec) : List String := spec.bodyText :: spec.returnExpressions

/-- A text of a specification has an obstacle. -/
def HasObstacle (spec : FunctionSpec) (f : Fault) : Prop := ∃ text ∈ spec.texts, Obstacle text f

end FunctionSpec

theorem settles_parseReturns {obstacle : Fault → Prop} {texts : List String}
    (h : ∀ text ∈ texts, ∀ f, Obstacle text f → obstacle f) (location : Location)
    (position : Nat) : Settles obstacle (parseReturns location position texts) := by
  induction texts generalizing position with
  | nil => exact .result []
  | cons text texts ih =>
    rw [parseReturns]
    refine .bind (.parsed (Script.endsWell_parseExpr text) (h text List.mem_cons_self) _ _)
      fun e => ?_
    refine .bind (ih (fun other hother => h other (List.mem_cons_of_mem _ hother)) _) fun others => ?_
    exact .result _

theorem settles_lastStatement (spec : FunctionSpec) (location : Location) :
    Settles spec.HasObstacle (lastStatement spec location) := by
  rw [lastStatement]
  split
  · exact .result _
  · refine .bind (settles_parseReturns (fun text htext f hf => ?_) location 0) fun es => ?_
    · exact ⟨text, List.mem_cons_of_mem _ htext, hf⟩
    · split <;> exact .result _

theorem settles_buildFunction (spec : FunctionSpec) (location : Location) :
    Settles spec.HasObstacle (buildFunction spec location) := by
  have hbody : Settles spec.HasObstacle (Preview.parsed (parseStatements spec.bodyText) .invalidBody
      (location.under ".bodyStatements")) :=
    .parsed (Script.endsWell_parseStatements spec.bodyText)
      (fun f hf => ⟨spec.bodyText, List.mem_cons_self, hf⟩) _ _
  rw [buildFunction]
  dsimp only
  split
  · refine .bind (.result []) fun body => .bind (settles_lastStatement spec location) fun last => ?_
    exact .result _
  · refine .bind hbody fun body => .bind (settles_lastStatement spec location) fun last => ?_
    exact .result _

/-- How a text becomes a function. -/
inductive Compiles (text : String) (location : Location) : Result PropFunction → Prop
  | function {f : Script.FunctionDef} (hshape : isFunctionSource text = true)
      (h : parseFunction text = .ok f) :
      Compiles text location (.ok ⟨f.params, text, some f.body⟩)
  /-- A text beyond the grammar that looks like a function is one without a body. -/
  | bodiless {e : Script.ParseError} (hshape : isFunctionSource text = true)
      (h : parseFunction text = .error e) (he : e.isFault = false) :
      Compiles text location (.ok ⟨Script.functionParams text, text, none⟩)
  | refusal (hshape : isFunctionSource text = false) :
      Compiles text location (.error (.config (.notFunction text) location))
  | fault {f : Fault} (h : Obstacle text f) : Compiles text location (.error (.fault f))

theorem compiles_compileFunction (source : String) (location : Location) :
    Compiles (Text.strip source) location (compileFunction source location) := by
  rw [compileFunction]
  split
  · next hshape =>
    have hends := Script.endsWell_parseFunction (Text.strip source)
    split
    · next f hparse => exact .function hshape hparse
    · next f hparse =>
      rw [hparse] at hends
      cases hends with
      | refusal h => cases h
      | fault h => exact .fault h
    · next e hne hparse =>
      rw [hparse] at hends
      cases hends with
      | refusal h => exact .bodiless hshape hparse h
      | fault h => exact absurd rfl (hne _)
  · next hshape => exact .refusal (Bool.eq_false_iff.mpr hshape)

/-- Errors of parsing are contained but for the obstacles of a text. -/
theorem functions_settle (source : String) (spec : FunctionSpec) (location : Location) :
    (EndsWell source (parseExpr source) ∧ EndsWell source (parseStatements source) ∧
      EndsWell source (parseFunction source)) ∧
    Settles spec.HasObstacle (buildFunction spec location) ∧
    Compiles (Text.strip source) location (compileFunction source location) := by
  refine ⟨⟨?_, ?_, ?_⟩, settles_buildFunction spec location,
    compiles_compileFunction source location⟩
  · exact Script.endsWell_parseExpr source
  · exact Script.endsWell_parseStatements source
  · exact Script.endsWell_parseFunction source

end Preview
end Vitrine
