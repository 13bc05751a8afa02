import Vitrine.Proofs.Script.Faults

/-!
# Faults that escape evaluation

A call turns faults into errors, but index accesses and operations stand outside of calls. These
are the only places from which a fault escapes evaluation, apart from calls nested too deep
(`evalExpr_ends`), and no call of a function ends in anything but a value, a failure of the function
or such a fault (`invokeWithin_ends`).
-/
namespace Vitrine
namespace Script

/-! ## Expressions -/

/-- The expressions that an expression is put together from. -/
def Expr.children : Expr → List Expr
  | .literal _ | .undefined | .ident _ => []
  | .member target _ => [target]
  | .index target key => [target, key]
  | .call callee args => callee :: args
  | .binary _ left right => [left, right]
  | .unary _ operand => [operand]
  | .conditional condition thenExpr elseExpr => [condition, thenExpr, elseExpr]
  | .array items | .sequence items => items
  | .object entries => entries.map (·.2)

/-- Somewhere in an expression there is an index access or an operation that faults on what its
parts come to, or a call that nests too deep. -/
inductive Escapes (invoke : Invoke) (scope : Scope) : Expr → Fault → Prop
  | index {target key : Expr} {v k : Cell} {t₀ t₁ t₂ t₃ : Trace} {f : Fault}
      (htarget : (evalExpr invoke scope target).exec t₀ = (.ok v, t₁))
      (hkey : (evalExpr invoke scope key).exec t₁ = (.ok k, t₂))
      (h : (property v k).exec t₂ = (.error (.fault f), t₃)) :
      Escapes invoke scope (.index target key) f
  | operation {op : BinaryOp} {left right : Expr} {a b : Cell} {t₀ t₁ t₂ t₃ : Trace} {f : Fault}
      (hleft : (evalExpr invoke scope left).exec t₀ = (.ok a, t₁))
      (hright : (evalExpr invoke scope right).exec t₁ = (.ok b, t₂))
      (h : (combine op a b).exec t₂ = (.error (.fault f), t₃)) :
      Escapes invoke scope (.binary op left right) f
  | depth {callee : Expr} {args : List Expr} {v : Cell} {vs : List Cell} {t₀ t₁ t₂ t₃ : Trace}
      (hcallee : (evalExpr invoke scope callee).exec t₀ = (.ok v, t₁))
      (hargs : (evalItems invoke scope args).exec t₁ = (.ok vs, t₂))
      (h : (call invoke v vs).exec t₂ = (.error (.fault .depth), t₃)) :
      Escapes invoke scope (.call callee args) .depth
  | inside {e part : Expr} {f : Fault} (hpart : part ∈ e.children)
      (h : Escapes invoke scope part f) : Escapes invoke scope e f

/-- The faults that evaluation may end in at all: those of conversions and arithmetic, and of calls
nested too deep. -/
def IsEscape (f : Fault) : Prop := IsNumeric f ∨ f = .depth

variable {α : Type} {invoke : Invoke} {scope : Scope}

theorem Escapes.isEscape {e : Expr} {f : Fault} (h : Escapes invoke scope e f) : IsEscape f := by
  induction h with
  | index _ _ h => exact Or.inl (property_faults _ _ _ _ _ h)
  | operation _ _ h => exact Or.inl (combine_faults _ _ _ _ _ _ h)
  | depth => exact Or.inr rfl
  | inside _ _ ih => exact ih

/-- One of some expressions faults. -/
def EscapesOne (invoke : Invoke) (scope : Scope) (es : List Expr) (f : Fault) : Prop :=
  ∃ e ∈ es, Escapes invoke scope e f

theorem EscapesOne.inside {e : Expr} {es : List Expr} {f : Fault}
    (h : EscapesOne invoke scope es f) (hes : es ⊆ e.children) : Escapes invoke scope e f := by
  obtain ⟨part, hpart, h⟩ := h
  exact .inside (hes hpart) h

mutual

/-- Evaluating an expression faults only at its index accesses and operations, or where calls nest
too deep. -/
theorem evalExpr_faults (hinvoke : ∀ g args, Eval.FaultsIn IsCallFault (invoke g args)) (e : Expr) :
    Eval.FaultsIn (Escapes invoke scope e) (evalExpr invoke scope e) := by
  cases e with
  | literal l =>
    cases l <;> (rw [evalExpr]; exact .pure _)
  | undefined =>
    rw [evalExpr]
    exact .pure _
  | ident name =>
    rw [evalExpr, lookUp]
    split
    · exact .pure _
    · exact .fail _
  | member target name =>
    rw [evalExpr]
    exact .bind ((evalExpr_faults hinvoke target).mono fun f h => .inside List.mem_cons_self h)
      fun v => property_name_faults v name
  | index target key =>
    rw [evalExpr]
    intro t f t' h
    rcases Eval.exec_bind_fault h with h | ⟨v, t₁, htarget, h⟩
    · exact .inside List.mem_cons_self (evalExpr_faults hinvoke target t f t' h)
    rcases Eval.exec_bind_fault h with h | ⟨k, t₂, hkey, h⟩
    · exact .inside (List.mem_cons_of_mem _ List.mem_cons_self)
        (evalExpr_faults hinvoke key t₁ f t' h)
    · exact .index htarget hkey h
  | call callee args =>
    rw [evalExpr]
    intro t f t' h
    rcases Eval.exec_bind_fault h with h | ⟨v, t₁, hcallee, h⟩
    · exact .inside List.mem_cons_self (evalExpr_faults hinvoke callee t f t' h)
    split at h
    · rcases Eval.exec_bind_fault h with h | ⟨vs, t₂, hargs, h⟩
      · exact (evalItems_faults hinvoke args t₁ f t' h).inside (List.subset_cons_self callee args)
      · obtain ⟨rfl, hcall⟩ := naming_faults hinvoke callee v vs h
        exact .depth hcallee hargs hcall
    · cases h
  | binary op left right =>
    rw [evalExpr]
    intro t f t' h
    rcases Eval.exec_bind_fault h with h | ⟨a, t₁, hleft, h⟩
    · exact .inside List.mem_cons_self (evalExpr_faults hinvoke left t f t' h)
    split at h
    · cases h
    rcases Eval.exec_bind_fault h with h | ⟨b, t₂, hright, h⟩
    · exact .inside (List.mem_cons_of_mem _ List.mem_cons_self)
        (evalExpr_faults hinvoke right t₁ f t' h)
    · exact .operation hleft hright h
  | unary op operand =>
    have hoperand := (evalExpr_faults hinvoke operand).mono fun f h =>
      (.inside List.mem_cons_self h : Escapes invoke scope (.unary op operand) f)
    rw [evalExpr.eq_def]
    dsimp only
    split
    · exact .pure _
    · exact .bind hoperand fun _ => .pure _
  | conditional condition thenExpr elseExpr =>
    rw [evalExpr]
    refine .bind ((evalExpr_faults hinvoke condition).mono fun f h => .inside List.mem_cons_self h)
      fun v => ?_
    split
    · exact (evalExpr_faults hinvoke thenExpr).mono fun f h =>
        .inside (List.mem_cons_of_mem _ List.mem_cons_self) h
    · exact (evalExpr_faults hinvoke elseExpr).mono fun f h =>
        .inside (List.mem_cons_of_mem _ (List.mem_cons_of_mem _ List.mem_cons_self)) h
  | array items =>
    rw [evalExpr]
    exact .bind ((evalItems_faults hinvoke items).mono fun f h => h.inside (List.Subset.refl _))
      fun _ => .newArray _
  | object entries =>
    rw [evalExpr]
    exact .bind ((evalEntries_faults hinvoke entries).mono fun f h => h.inside (List.Subset.refl _))
      fun _ => .newObject _
  | sequence items =>
    rw [evalExpr]
    exact .bind ((evalItems_faults hinvoke items).mono fun f h => h.inside (List.Subset.refl _))
      fun _ => .pure _

theorem evalItems_faults (hinvoke : ∀ g args, Eval.FaultsIn IsCallFault (invoke g args))
    (es : List Expr) :
    Eval.FaultsIn (EscapesOne invoke scope es) (evalItems invoke scope es) := by
  cases es with
  | nil =>
    rw [evalItems]
    exact .pure _
  | cons e es =>
    rw [evalItems]
    refine .bind ((evalExpr_faults hinvoke e).mono fun f h => ?_) fun v =>
      .bind ((evalItems_faults hinvoke es).mono fun f h => ?_) fun vs => .pure _
    · exact ⟨e, List.mem_cons_self, h⟩
    · exact h.imp fun part h => ⟨List.mem_cons_of_mem _ h.1, h.2⟩

theorem evalEntries_faults (hinvoke : ∀ g args, Eval.FaultsIn IsCallFault (invoke g args))
    (es : List (String × Expr)) :
    Eval.FaultsIn (EscapesOne invoke scope (es.map (·.2))) (evalEntries invoke scope es) := by
  cases es with
  | nil =>
    rw [evalEntries]
    exact .pure _
  | cons e es =>
    rw [evalEntries]
    refine .bind ((evalExpr_faults hinvoke e.2).mono fun f h => ?_) fun v =>
      .bind ((evalEntries_faults hinvoke es).mono fun f h => ?_) fun vs => .pure _
    · exact ⟨e.2, List.mem_cons_self, h⟩
    · exact h.imp fun part h => ⟨List.mem_cons_of_mem _ h.1, h.2⟩

end

/-! ## Statements -/

/-- The expression that a statement evaluates. -/
def Stmt.expr? : Stmt → Option Expr
  | .declare _ _ value | .ret value => value
  | .assign _ e | .expr e | .throw e => some e

/-- The expression of a statement faults, or what it throws cannot be written as a message. -/
inductive Stmt.Escapes (invoke : Invoke) (scope : Scope) : Stmt → Fault → Prop
  | value {st : Stmt} {e : Expr} {f : Fault} (he : st.expr? = some e)
      (h : Script.Escapes invoke scope e f) : Stmt.Escapes invoke scope st f
  | message {e : Expr} {v : Cell} {t₀ t₁ t₂ : Trace} {f : Fault}
      (he : (evalExpr invoke scope e).exec t₀ = (.ok v, t₁))
      (h : (Eval.throwValue v : Eval Cell).exec t₁ = (.error (.fault f), t₂)) :
      Stmt.Escapes invoke scope (.throw e) f

theorem Stmt.Escapes.isEscape {st : Stmt} {f : Fault} (h : st.Escapes invoke scope f) :
    IsEscape f := by
  cases h with
  | value _ h => exact h.isEscape
  | message _ h => exact Or.inl (isNumeric_of_isUnwritable (throwValue_faults _ _ _ _ h))

theorem Run.exec_bind_fault {β : Type} {r : Run α} {g : α → Run β} {s s' : Scope} {t t' : Trace}
    {f : Fault} (h : (r >>= g).exec s t = ((.error (.fault f), s'), t')) :
    (∃ s'' t'', r.exec s t = ((.error (.fault f), s''), t'')) ∨
      ∃ a s'' t'', r.exec s t = ((.ok a, s''), t'') ∧
        (g a).exec s'' t'' = ((.error (.fault f), s'), t') := by
  rw [Run.exec_bind] at h
  rcases hr : r.exec s t with ⟨⟨o, s''⟩, t''⟩
  rw [hr] at h
  cases o with
  | ok a => exact Or.inr ⟨a, s'', t'', rfl, h⟩
  | error failure =>
    cases h
    exact Or.inl ⟨_, _, rfl⟩

theorem Run.exec_ofEval_fault {e : Scope → Eval α} {s s' : Scope} {t t' : Trace} {f : Fault}
    (h : (Run.ofEval e).exec s t = ((.error (.fault f), s'), t')) :
    (e s).exec t = (.error (.fault f), t') := by
  rw [Run.exec_ofEval] at h
  rw [← (Prod.mk.inj h).2, ← (Prod.mk.inj (Prod.mk.inj h).1).1]

/-- A statement that does not leave the function faults in its expression. -/
theorem step_faults (hinvoke : ∀ g args, Eval.FaultsIn IsCallFault (invoke g args)) {st : Stmt}
    {s s' : Scope} {t t' : Trace} {f : Fault}
    (h : (st.step invoke).exec s t = ((.error (.fault f), s'), t')) :
    st.Escapes invoke s f := by
  cases st with
  | declare word name value =>
    cases value with
    | none => cases h
    | some e =>
      rw [Stmt.step] at h
      rcases Run.exec_bind_fault h with ⟨s₁, t₁, h⟩ | ⟨v, s₁, t₁, -, h⟩
      · exact .value rfl (evalExpr_faults hinvoke e t f t₁ (Run.exec_ofEval_fault h))
      · cases h
  | assign name e =>
    rw [Stmt.step] at h
    rcases Run.exec_bind_fault h with ⟨s₁, t₁, h⟩ | ⟨v, s₁, t₁, -, h⟩
    · have heval := Run.exec_ofEval_fault h
      split at heval
      · exact .value rfl (evalExpr_faults hinvoke e t f t₁ heval)
      · cases heval
    · cases h
  | expr e =>
    rw [Stmt.step] at h
    rcases Run.exec_bind_fault h with ⟨s₁, t₁, h⟩ | ⟨v, s₁, t₁, -, h⟩
    · exact .value rfl (evalExpr_faults hinvoke e t f t₁ (Run.exec_ofEval_fault h))
    · cases h
  | ret value => cases h
  | throw e => cases h

/-- A statement that leaves the function faults in its expression or in the message of what it
throws. -/
theorem leave_faults (hinvoke : ∀ g args, Eval.FaultsIn IsCallFault (invoke g args)) {st : Stmt}
    (hst : st.leaves = true) {s s' : Scope} {t t' : Trace} {f : Fault}
    (h : (runStmts invoke [st]).exec s t = ((.error (.fault f), s'), t')) :
    st.Escapes invoke s f := by
  cases st with
  | ret value =>
    cases value with
    | none => cases h
    | some e =>
      exact .value rfl (evalExpr_faults hinvoke e t f t' (Run.exec_ofEval_fault h))
  | throw e =>
    rcases Eval.exec_bind_fault (Run.exec_ofEval_fault h) with h | ⟨v, t₁, he, h⟩
    · exact .value rfl (evalExpr_faults hinvoke e t f t' h)
    · exact .message he h
  | _ => cases hst

/-- Statements fault only where one of them does, in the scope that those in front of it leave. -/
theorem runStmts_faults (hinvoke : ∀ g args, Eval.FaultsIn IsCallFault (invoke g args))
    {body : List Stmt} {s s' : Scope} {t t' : Trace} {f : Fault}
    (h : (runStmts invoke body).exec s t = ((.error (.fault f), s'), t')) :
    ∃ st ∈ body, ∃ scope, st.Escapes invoke scope f := by
  induction body generalizing s t with
  | nil => cases h
  | cons st body ih =>
    cases hst : st.leaves with
    | true =>
      rw [runStmts_of_leaves hst] at h
      exact ⟨st, List.mem_cons_self, s, leave_faults hinvoke hst h⟩
    | false =>
      rw [runStmts_of_stays hst] at h
      rcases Run.exec_bind_fault h with ⟨s₁, t₁, h⟩ | ⟨u, s₁, t₁, -, h⟩
      · exact ⟨st, List.mem_cons_self, s, step_faults hinvoke h⟩
      · exact (ih h).imp fun st' h => ⟨List.mem_cons_of_mem _ h.1, h.2⟩

/-! ## Functions -/

/-- A statement of a function faults in some scope, the calls inside going through `invoke`. -/
def EscapesCall (invoke : Invoke) (g : PropFunction) (f : Fault) : Prop :=
  ∃ body, g.body = some body ∧ ∃ st ∈ body, ∃ scope, st.Escapes invoke scope f

theorem EscapesCall.isEscape {g : PropFunction} {f : Fault} (h : EscapesCall invoke g f) :
    IsEscape f := by
  obtain ⟨body, -, st, -, scope, h⟩ := h
  exact h.isEscape

/-- How the call of a function may end. -/
inductive CallEnds (escapes : Fault → Prop) : Except Failure Cell → Prop
  | value (v : Cell) : CallEnds escapes (.ok v)
  | failure (message : String) : CallEnds escapes (.error (.function message))
  | escape {f : Fault} (h : escapes f) : CallEnds escapes (.error (.fault f))

theorem CallEnds.mono {escapes escapes' : Fault → Prop} {r : Except Failure Cell}
    (h : CallEnds escapes r) (hescapes : ∀ f, escapes f → escapes' f) : CallEnds escapes' r := by
  cases h with
  | value v => exact .value v
  | failure message => exact .failure message
  | escape h => exact .escape (hescapes _ h)

theorem callEnds_inFunction {escapes : Fault → Prop} (source : String) {r : Except Failure Cell}
    (h : ∀ f, r = .error (.fault f) → escapes f) :
    CallEnds escapes (r.mapError (Failure.inFunction source)) := by
  cases r with
  | ok v => exact .value v
  | error failure =>
    cases failure with
    | fault f => exact .escape (h f rfl)
    | _ => exact .failure _

/-- A call ends in a value, a failure of the function, or a fault that escapes from its body. -/
theorem invokeWithin_ends {depth : Nat}
    (hinvoke : ∀ g args, Eval.FaultsIn IsCallFault (invokeWithin depth g args)) (g : PropFunction)
    (args : List Cell) (t : Trace) :
    CallEnds (EscapesCall (invokeWithin depth) g)
      ((invokeWithin (depth + 1) g args).exec t).1 := by
  obtain ⟨params, source, body⟩ := g
  cases body with
  | none => exact .failure _
  | some body =>
    have hexec := exec_invokeWithin depth params source body args t
    rw [(Prod.mk.inj hexec).1]
    exact callEnds_inFunction source fun f hf =>
      ⟨body, rfl, runStmts_faults hinvoke (Prod.ext (Prod.ext hf rfl) rfl)⟩

/-- However deep calls may nest, they fault only in ways that a call gives a name to, or by their
depth. -/
theorem invokeWithin_faults (depth : Nat) (g : PropFunction) (args : List Cell) :
    Eval.FaultsIn IsCallFault (invokeWithin depth g args) := by
  induction depth generalizing g args with
  | zero => exact .fault (Or.inr rfl)
  | succ depth ih =>
    intro t f t' h
    have hends := invokeWithin_ends ih g args t
    rw [h] at hends
    cases hends with
    | escape h => exact h.isEscape.imp_left IsNumeric.isNamed

/-! ## Evaluation -/

/-- How evaluating an expression may end. -/
inductive EvalEnds (escapes : Fault → Prop) : Except Failure Cell → Prop
  | value (v : Cell) : EvalEnds escapes (.ok v)
  | error (e : EvalError) : EvalEnds escapes (.error (.error e))
  | thrown (v : Cell) (message : String) : EvalEnds escapes (.error (.thrown v message))
  /-- A function that the expression calls failed. -/
  | function (message : String) : EvalEnds escapes (.error (.function message))
  | escape {f : Fault} (h : escapes f) : EvalEnds escapes (.error (.fault f))

theorem EvalEnds.mono {escapes escapes' : Fault → Prop} {r : Except Failure Cell}
    (h : EvalEnds escapes r) (hescapes : ∀ f, escapes f → escapes' f) : EvalEnds escapes' r := by
  cases h with
  | value v => exact .value v
  | error e => exact .error e
  | thrown v message => exact .thrown v message
  | function message => exact .function message
  | escape h => exact .escape (hescapes _ h)

theorem evalExpr_ends (hinvoke : ∀ g args, Eval.FaultsIn IsCallFault (invoke g args)) (e : Expr)
    (t : Trace) : EvalEnds (Escapes invoke scope e) ((evalExpr invoke scope e).exec t).1 := by
  rcases heval : (evalExpr invoke scope e).exec t with ⟨r, t'⟩
  cases r with
  | ok v => exact .value v
  | error failure =>
    cases failure with
    | fault f => exact .escape (evalExpr_faults hinvoke e t f t' heval)
    | error e => exact .error e
    | thrown v message => exact .thrown v message
    | function message => exact .function message

/-- Evaluation is contained but for the faults of index accesses and operations outside of calls,
of messages that cannot be written, and of calls nested too deep: otherwise an evaluation ends in a
value, in an error or in the failure of a function, and the call of a function in a value or in its
failure. No other faults than those of conversions, arithmetic and depth escape. -/
theorem evaluation_ends (e : Expr) (scope : Scope) (g : PropFunction) (args : List Cell)
    (t : Trace) :
    EvalEnds (fun f => Escapes Script.invoke scope e f ∧ IsEscape f)
      ((evaluate e scope).exec t).1 ∧
    CallEnds (fun f => EscapesCall (invokeWithin (depthLimit - 1)) g f ∧ IsEscape f)
      ((Script.invoke g args).exec t).1 := by
  have hcall := invokeWithin_ends (invokeWithin_faults (depthLimit - 1)) g args t
  constructor
  · exact (evalExpr_ends (invokeWithin_faults depthLimit) e t).mono fun _ h => ⟨h, h.isEscape⟩
  · exact hcall.mono fun _ h => ⟨h, h.isEscape⟩

end Script
end Vitrine
