import Mathlib
import Vitrine.Script.Eval
import Vitrine.Script.Parser

/-!
# Running statements

What statements do step by step, and bodies that differ in their last statement only
(`exec_append_congr`).
-/
namespace Vitrine
namespace Script

variable {α β : Type} {invoke : Invoke}

/-! ## Evaluation and execution -/

/-- The outcome of an evaluation, and the trace behind it. -/
def Eval.exec (e : Eval α) (t : Trace) : Except Failure α × Trace := e.run.run t

/-- The outcome of an execution, and the scope and the trace behind it. -/
def Run.exec (r : Run α) (s : Scope) (t : Trace) : (Except Failure α × Scope) × Trace :=
  (r.run.run s).run t

theorem Eval.exec_bind (e : Eval α) (f : α → Eval β) (t : Trace) :
    (e >>= f).exec t =
      match e.exec t with
      | (.ok a, t') => (f a).exec t'
      | (.error failure, t') => (.error failure, t') := by
  show (ExceptT.bind e f).run.run t = _
  simp only [ExceptT.bind, ExceptT.run, ExceptT.mk, StateT.run, bind, StateT.bind, exec]
  rcases e t with ⟨r, t'⟩
  cases r <;> rfl

theorem Eval.exec_tryCatch (e : Eval α) (f : Failure → Eval α) (t : Trace) :
    (tryCatch e f).exec t =
      match e.exec t with
      | (.ok a, t') => (.ok a, t')
      | (.error failure, t') => (f failure).exec t' := by
  show (ExceptT.tryCatch e f).run.run t = _
  simp only [ExceptT.tryCatch, ExceptT.run, ExceptT.mk, StateT.run, bind, StateT.bind, exec]
  rcases e t with ⟨r, t'⟩
  cases r <;> rfl

theorem Run.exec_bind (r : Run α) (f : α → Run β) (s : Scope) (t : Trace) :
    (r >>= f).exec s t =
      match r.exec s t with
      | ((.ok a, s'), t') => (f a).exec s' t'
      | ((.error failure, s'), t') => ((.error failure, s'), t') := by
  show ((ExceptT.bind r f).run.run s).run t = _
  simp only [ExceptT.bind, ExceptT.run, ExceptT.mk, StateT.run, bind, StateT.bind, exec]
  rcases r s t with ⟨⟨o, s'⟩, t'⟩
  cases o <;> rfl

theorem Run.exec_ofEval (e : Scope → Eval α) (s : Scope) (t : Trace) :
    (Run.ofEval e).exec s t = ((((e s).exec t).1, s), ((e s).exec t).2) := rfl

/-! ## Single statements -/

/-- What a statement does if it does not leave the function. -/
def Stmt.step (invoke : Invoke) : Stmt → Run Unit
  | .declare _ name none => Run.set name .undefined
  | .declare _ name (some e) => do
    Run.set name (← Run.ofEval fun scope => evalExpr invoke scope e)
  | .assign name e => do
    Run.set name (← Run.ofEval fun scope =>
      if (scope.get? name).isSome then evalExpr invoke scope e
      else Eval.fail (.notDefined name))
  | .expr e => do
    let _ ← Run.ofEval fun scope => evalExpr invoke scope e
  | .ret _ | .throw _ => pure ()

/-- Whether a statement leaves the function. -/
def Stmt.leaves : Stmt → Bool
  | .ret _ | .throw _ => true
  | _ => false

theorem runStmts_of_leaves {st : Stmt} (h : st.leaves = true) (rest : List Stmt) :
    runStmts invoke (st :: rest) = runStmts invoke [st] := by
  cases st with
  | ret value => cases value <;> rfl
  | throw e => rfl
  | _ => cases h

theorem runStmts_of_stays {st : Stmt} (h : st.leaves = false) (rest : List Stmt) :
    runStmts invoke (st :: rest) = st.step invoke >>= fun _ => runStmts invoke rest := by
  cases st with
  | declare word name value =>
    cases value with
    | none => rfl
    | some e => rw [runStmts, Stmt.step, bind_assoc]
  | assign name e => rw [runStmts, Stmt.step, bind_assoc]
  | expr e =>
    rw [runStmts, Stmt.step, bind_assoc]
    simp only [pure_bind]
  | _ => cases h

/-! ## Bodies that differ in their last statement -/

/-- If the last statements do the same in every scope that the statements in front of them leave
behind, so do the bodies. -/
theorem exec_append_congr {a b : Stmt} {P : Scope → Prop}
    {R : (Except Failure Cell × Scope) × Trace → (Except Failure Cell × Scope) × Trace → Prop}
    (hrefl : ∀ o, R o o)
    (hlast : ∀ s t, P s → R ((runStmts invoke [a]).exec s t) ((runStmts invoke [b]).exec s t))
    {body : List Stmt}
    (hstep : ∀ st ∈ body, ∀ s t s' t', P s →
      (st.step invoke).exec s t = ((.ok (), s'), t') → P s')
    {s : Scope} (hs : P s) (t : Trace) :
    R ((runStmts invoke (body ++ [a])).exec s t) ((runStmts invoke (body ++ [b])).exec s t) := by
  induction body generalizing s t with
  | nil => exact hlast s t hs
  | cons st body ih =>
    rw [List.cons_append, List.cons_append]
    cases hst : st.leaves with
    | true =>
      rw [runStmts_of_leaves hst (body ++ [a]), runStmts_of_leaves hst (body ++ [b])]
      exact hrefl _
    | false =>
      rw [runStmts_of_stays hst, runStmts_of_stays hst, Run.exec_bind, Run.exec_bind]
      rcases hexec : (st.step invoke).exec s t with ⟨⟨o, s'⟩, t'⟩
      cases o with
      | error failure => exact hrefl _
      | ok u =>
        exact ih (fun st hst => hstep st (List.mem_cons_of_mem _ hst))
          (hstep st List.mem_cons_self s t s' t' hs hexec) t'

/-! ## Names of a scope -/

theorem Scope.get?_set_of_ne {name other : String} (h : name ≠ other) (v : Cell) (s : Scope) :
    (s.set other v).get? name = s.get? name := by
  induction s with
  | nil => simp [Scope.set, Scope.get?, List.lookup, beq_false_of_ne h]
  | cons entry s ih =>
    obtain ⟨n, w⟩ := entry
    rw [Scope.set]
    by_cases hn : n = other
    · subst hn
      rw [if_pos rfl]
      simp [Scope.get?, List.lookup, beq_false_of_ne h]
    · rw [if_neg hn]
      simp only [Scope.get?, List.lookup]
      cases name == n with
      | true => rfl
      | false => exact ih

theorem Scope.get?_set_self (name : String) (v : Cell) (s : Scope) :
    (s.set name v).get? name = some v := by
  induction s with
  | nil => simp [Scope.set, Scope.get?]
  | cons entry s ih =>
    obtain ⟨n, w⟩ := entry
    rw [Scope.set]
    by_cases hn : n = name
    · subst hn
      simp [Scope.get?]
    · rw [if_neg hn]
      simp only [Scope.get?, List.lookup, beq_false_of_ne (Ne.symm hn)]
      exact ih

/-- Whether a statement declares a name. -/
def Stmt.declares (name : String) : Stmt → Bool
  | .declare _ n _ => n = name
  | _ => false

/-- The name that a statement declares or assigns. -/
def Stmt.bound? : Stmt → Option String
  | .declare _ name _ | .assign name _ => some name
  | .expr _ | .ret _ | .throw _ => none

/-- What a statement makes of a scope: nothing, or it gives a value to the name that it declares, or
to the name that it assigns, which has one already. -/
inductive Rebinds (st : Stmt) (s : Scope) : Scope → Prop
  | unchanged : Rebinds st s s
  | bound {name : String} (v : Cell) (hname : st.bound? = some name)
      (hknown : st.declares name = true ∨ (s.get? name).isSome = true) :
      Rebinds st s (s.set name v)

theorem rebinds_step (invoke : Invoke) (st : Stmt) (s : Scope) (t : Trace) :
    Rebinds st s ((st.step invoke).exec s t).1.2 := by
  cases st with
  | declare word name value =>
    have hdeclares : (Stmt.declare word name value).declares name = true := decide_eq_true rfl
    cases value with
    | none => exact .bound .undefined rfl (Or.inl hdeclares)
    | some e =>
      rw [Stmt.step, Run.exec_bind, Run.exec_ofEval]
      rcases (evalExpr invoke s e).exec t with ⟨o, t'⟩
      cases o with
      | error failure => exact .unchanged
      | ok v => exact .bound v rfl (Or.inl hdeclares)
  | assign name e =>
    rw [Stmt.step, Run.exec_bind, Run.exec_ofEval]
    by_cases hsome : (s.get? name).isSome = true
    · rw [if_pos hsome]
      rcases (evalExpr invoke s e).exec t with ⟨o, t'⟩
      cases o with
      | error failure => exact .unchanged
      | ok v => exact .bound v rfl (Or.inr hsome)
    · rw [if_neg hsome]
      exact .unchanged
  | expr e =>
    rw [Stmt.step, Run.exec_bind, Run.exec_ofEval]
    rcases (evalExpr invoke s e).exec t with ⟨o, t'⟩
    cases o <;> exact .unchanged
  | ret value => exact .unchanged
  | throw e => exact .unchanged

/-- A name that a statement does not bind keeps its value. -/
theorem Rebinds.get?_eq {st : Stmt} {name : String} {s s' : Scope} (h : Rebinds st s s')
    (hname : st.bound? ≠ some name) : s'.get? name = s.get? name := by
  cases h with
  | unchanged => rfl
  | bound v hbound =>
    refine Scope.get?_set_of_ne ?_ v s
    rintro rfl
    exact hname hbound

/-- Only a declaration brings a name into a scope. -/
theorem Rebinds.known {st : Stmt} {name : String} {s s' : Scope} (h : Rebinds st s s')
    (hname : (s'.get? name).isSome = true) :
    st.declares name = true ∨ (s.get? name).isSome = true := by
  cases h with
  | unchanged => exact Or.inr hname
  | @bound other v hbound hknown =>
    by_cases hne : name = other
    · rw [hne]
      exact hknown
    · rw [Scope.get?_set_of_ne hne] at hname
      exact Or.inr hname

theorem get?_step {name : String} {st : Stmt} (hst : st.declares name = false) {s s' : Scope}
    {t t' : Trace} (hs : s.get? name = none)
    (h : (st.step invoke).exec s t = ((.ok (), s'), t')) : s'.get? name = none := by
  have hrebinds : Rebinds st s s' := by
    have hstep := rebinds_step invoke st s t
    rw [h] at hstep
    exact hstep
  rw [← Option.not_isSome_iff_eq_none]
  intro hsome
  rcases hrebinds.known hsome with hdeclares | hsome
  · rw [hst] at hdeclares
    cases hdeclares
  · rw [hs] at hsome
    cases hsome

theorem get?_bindParams {name : String} {params : List String} (h : name ∉ params)
    (args : List Cell) : Scope.get? name (bindParams params args) = none := by
  have hfold : ∀ (ps : List (String × Nat)) (s : Scope), (∀ p ∈ ps, p.1 ≠ name) →
      s.get? name = none →
      Scope.get? name (ps.foldl (fun scope p => scope.set p.1 ((args[p.2]?).getD .undefined)) s) =
        none := by
    intro ps
    induction ps with
    | nil => exact fun s _ hs => hs
    | cons p ps ih =>
      intro s hps hs
      rw [List.foldl_cons]
      refine ih _ (fun q hq => hps q (List.mem_cons_of_mem _ hq)) ?_
      rw [Scope.get?_set_of_ne (hps p List.mem_cons_self).symm, hs]
  refine hfold _ _ (fun p hp => ?_) rfl
  rintro rfl
  exact h (List.fst_mem_of_mem_zipIdx hp)

theorem bindParams_concat (params : List String) (name : String) (args : List Cell) :
    bindParams (params ++ [name]) args =
      (bindParams params args).set name ((args[params.length]?).getD .undefined) := by
  rw [bindParams, List.zipIdx_append, List.foldl_append, Nat.zero_add]
  rfl

/-- A name has the argument at its last position among the parameters. -/
theorem get?_bindParams_last {name : String} {params : List String} {i : Nat}
    (hi : params[i]? = some name) (hlast : ∀ j, params[j]? = some name → j ≤ i) (args : List Cell) :
    Scope.get? name (bindParams params args) = some ((args[i]?).getD .undefined) := by
  induction params using List.reverseRecOn with
  | nil => cases hi
  | append_singleton params other ih =>
    have hlt : i < (params ++ [other]).length := (List.getElem?_eq_some_iff.mp hi).1
    rw [List.length_append, List.length_singleton] at hlt
    rw [bindParams_concat]
    by_cases hother : other = name
    · subst hother
      have hle : params.length ≤ i := hlast _ (by simp)
      rw [Scope.get?_set_self, Nat.le_antisymm (by omega) hle]
    · have hne : i ≠ params.length := by
        rintro rfl
        rw [List.getElem?_concat_length] at hi
        exact hother (Option.some.inj hi)
      have hfront : ∀ j < params.length, (params ++ [other])[j]? = params[j]? :=
        fun j hj => List.getElem?_append_left hj
      rw [Scope.get?_set_of_ne (Ne.symm hother)]
      refine ih ((hfront i (by omega)) ▸ hi) fun j hj => ?_
      have hj' : j < params.length := (List.getElem?_eq_some_iff.mp hj).1
      exact hlast j ((hfront j hj').trans hj)

/-- What a name stands for depends on the arguments at its positions. -/
theorem get?_bindParams_congr {name : String} {params : List String} {args args' : List Cell}
    (h : ∀ j : Nat, params[j]? = some name →
      (args[j]?).getD Value.undefined = (args'[j]?).getD Value.undefined) :
    Scope.get? name (bindParams params args) = Scope.get? name (bindParams params args') := by
  induction params using List.reverseRecOn with
  | nil => rfl
  | append_singleton params other ih =>
    rw [bindParams_concat, bindParams_concat]
    by_cases hother : other = name
    · subst hother
      rw [Scope.get?_set_self, Scope.get?_set_self, h params.length List.getElem?_concat_length]
    · rw [Scope.get?_set_of_ne (Ne.symm hother), Scope.get?_set_of_ne (Ne.symm hother)]
      refine ih fun j hj => h j ?_
      rw [List.getElem?_append_left (List.getElem?_eq_some_iff.mp hj).1, hj]

/-! ## Joined sequences -/

variable {scope : Scope}

theorem evalExpr_single (e : Expr) :
    evalExpr invoke scope (.sequence [e]) = evalExpr invoke scope e := by
  rw [evalExpr, evalItems, evalItems]
  simp [List.getLast?]

/-- A sequence evaluates its first item and goes on. -/
theorem evalExpr_sequence_cons (e : Expr) {es : List Expr} (h : es ≠ []) :
    evalExpr invoke scope (.sequence (e :: es)) =
      evalExpr invoke scope e >>= fun _ => evalExpr invoke scope (.sequence es) := by
  cases es with
  | nil => exact absurd rfl h
  | cons e' es =>
    rw [evalExpr, evalExpr, evalItems, evalItems]
    simp [List.getLast?_cons_cons]

theorem evalExpr_sequence_append {es es' : List Expr} (h : es ≠ []) (h' : es' ≠ []) :
    evalExpr invoke scope (.sequence (es ++ es')) =
      evalExpr invoke scope (.sequence es) >>= fun _ => evalExpr invoke scope (.sequence es') := by
  induction es with
  | nil => exact absurd rfl h
  | cons e es ih =>
    rw [List.cons_append, evalExpr_sequence_cons e (List.append_ne_nil_of_right_ne_nil es h')]
    cases es with
    | nil => rw [List.nil_append, evalExpr_single]
    | cons e' es =>
      rw [ih (List.cons_ne_nil _ _), evalExpr_sequence_cons e (List.cons_ne_nil _ _), bind_assoc]

theorem evalExpr_ofItems (e : Expr) (es : List Expr) :
    evalExpr invoke scope (Expr.ofItems e es) = evalExpr invoke scope (.sequence (e :: es)) := by
  cases es with
  | nil => rw [evalExpr_single]; rfl
  | cons e' es => rfl

/-- Expressions, and what remains of them when those that are sequences are joined: their items one
after the other. -/
inductive Joins : List Expr → List Expr → Prop
  | nil : Joins [] []
  | cons {e es others items} (h : Joins others items) :
      Joins (Expr.ofItems e es :: others) (e :: (es ++ items))

/-- Joined sequences come to the same. -/
theorem Joins.evalExpr {es items : List Expr} (h : Joins es items) (hes : es ≠ []) :
    Script.evalExpr invoke scope (.sequence es) = Script.evalExpr invoke scope (.sequence items) := by
  induction h with
  | nil => exact absurd rfl hes
  | @cons e es others items h ih =>
    cases h with
    | nil => rw [List.append_nil, evalExpr_single, evalExpr_ofItems]
    | cons h =>
      rw [evalExpr_sequence_cons _ (List.cons_ne_nil _ _), ih (List.cons_ne_nil _ _),
        evalExpr_ofItems]
      exact (evalExpr_sequence_append (List.cons_ne_nil e es) (List.cons_ne_nil _ _)).symm

/-! ## Functions -/

/-- Two functions do the same on all arguments: they end with the same value or failure, and leave
the same console entries. -/
def SameOutcome (f g : PropFunction) : Prop :=
  ∀ args t, ((Script.invoke f args).exec t).1 = ((Script.invoke g args).exec t).1 ∧
    ((Script.invoke f args).exec t).2.logs = ((Script.invoke g args).exec t).2.logs

/-- What a function makes of the end of its body. -/
def shown (source : String) (o : (Except Failure Cell × Scope) × Trace) :
    Except Failure Cell × List LogEntry :=
  (o.1.1.mapError (Failure.inFunction source), o.2.logs)

/-- A call ends as the body ends in the scope of the arguments. -/
theorem exec_call (depth : Nat) (params : List String) (source : String) (body : List Stmt)
    (args : List Cell) (t : Trace) :
    (invokeWithin (depth + 1) ⟨params, source, some body⟩ args).exec t =
      let o := (runStmts (invokeWithin depth) body).exec (bindParams params args) t
      (o.1.1.mapError (Failure.inFunction source), o.2) := by
  have hbody : Eval.exec (ExceptT.mk (do
        let r ← (runStmts (invokeWithin depth) body).run (bindParams params args)
        return r.1)) t =
      (((runStmts (invokeWithin depth) body).exec (bindParams params args) t).1.1,
        ((runStmts (invokeWithin depth) body).exec (bindParams params args) t).2) := rfl
  have hcall : (invokeWithin (depth + 1) ⟨params, source, some body⟩ args).exec t =
      Eval.exec (tryCatch (ExceptT.mk (do
        let r ← (runStmts (invokeWithin depth) body).run (bindParams params args)
        return r.1)) fun failure => throw (failure.inFunction source)) t := rfl
  rw [hcall, Eval.exec_tryCatch, hbody]
  rcases (runStmts (invokeWithin depth) body).exec (bindParams params args) t with ⟨⟨r, s⟩, t'⟩
  cases r <;> rfl

theorem exec_invokeWithin (depth : Nat) (params : List String) (source : String)
    (body : List Stmt) (args : List Cell) (t : Trace) :
    let o := (invokeWithin (depth + 1) ⟨params, source, some body⟩ args).exec t
    (o.1, o.2.logs) =
      shown source ((runStmts (invokeWithin depth) body).exec (bindParams params args) t) := by
  rw [exec_call]
  rfl

/-- Functions whose bodies end alike do the same. -/
theorem sameOutcome_of_shown {params : List String} {source : String} {body body' : List Stmt}
    (h : ∀ args t,
      shown source ((runStmts (invokeWithin 189) body).exec (bindParams params args) t) =
        shown source ((runStmts (invokeWithin 189) body').exec (bindParams params args) t)) :
    SameOutcome ⟨params, source, some body⟩ ⟨params, source, some body'⟩ := by
  intro args t
  have hf := exec_invokeWithin 189 params source body args t
  have hg := exec_invokeWithin 189 params source body' args t
  rw [h args t, ← hg] at hf
  exact Prod.mk.inj hf

/-! ## Thrown errors -/

/-- The expression that makes an error. -/
def newError (message : String) : Expr := .call (.ident "Error") [.literal (.string message)]

theorem exec_newError {s : Scope} (h : s.get? "Error" = none) (message : String) (t : Trace) :
    (evalExpr invoke s (newError message)).exec t =
      (.ok (.object (.cell t.next)
        [(.str "name", .str "Error"), (.str "message", .str message)]), { t with next := t.next + 1 }) := by
  have hlook : lookUp s "Error" = pure (.builtin .error) := by
    rw [lookUp, lookUp?, h]
    rfl
  rw [newError, evalExpr, evalExpr, hlook, pure_bind]
  rfl

theorem shown_throw {source : String} {s : Scope} (h : s.get? "Error" = none) (message : String)
    (t : Trace) :
    shown source ((runStmts invoke [.throw (.literal (.string message))]).exec s t) =
      shown source ((runStmts invoke [.throw (newError message)]).exec s t) := by
  rw [runStmts, runStmts, Run.exec_ofEval, Run.exec_ofEval, Eval.exec_bind, Eval.exec_bind,
    exec_newError h]
  rfl

end Script
end Vitrine
