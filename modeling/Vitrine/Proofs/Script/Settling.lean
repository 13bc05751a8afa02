import Vitrine.Proofs.Script.FunctionFree

/-!
# Evaluation without functions

Where no prop function occurs in the scope, none is ever called: statements do the same however deep
calls may nest, they do not run into the bound on that depth, and no function occurs in what they
come to or in the scope that they leave (`functionFree_settles`).
-/
namespace Vitrine
namespace Script

open Value (FunctionFree)

variable {α β : Type} {P : α → Prop} {Q : β → Prop} {invoke invoke' : Invoke} {s : Scope}

/-! ## Outcomes -/

/-- Two evaluations that do the same, and end without functions and not at the depth of calls. -/
def Eval.Settles (P : α → Prop) (e e' : Eval α) : Prop :=
  ∀ t, e.exec t = e'.exec t ∧ Clean P (e.exec t).1 ∧ (e.exec t).1 ≠ .error (.fault .depth)

theorem ne_depth_of_isNamed {f : Fault} (h : IsNamed f) : f ≠ .depth := by
  rintro rfl
  rcases h with h | h | h <;> cases h

namespace Eval.Settles

/-- An operation that runs no function. -/
theorem of_yields {e : Eval α} (h : Eval.Yields P e) (hfaults : Eval.FaultsIn IsNamed e) :
    Eval.Settles P e e := by
  refine fun t => ⟨rfl, h t, fun hdepth => ?_⟩
  exact ne_depth_of_isNamed (hfaults t .depth _ (Prod.ext hdepth rfl)) rfl

theorem pure {a : α} (h : P a) : Eval.Settles P (Pure.pure a : Eval α) (Pure.pure a) :=
  .of_yields (.pure h) (.pure a)

theorem fail (e : EvalError) : Eval.Settles P (Eval.fail e : Eval α) (Eval.fail e) :=
  .of_yields (.fail e) (.fail e)

theorem fault {f : Fault} (h : IsNamed f) :
    Eval.Settles P (Eval.fault f : Eval α) (Eval.fault f) :=
  .of_yields (.fault f) (.fault h)

theorem bind {e e' : Eval α} {g g' : α → Eval β} (h : Eval.Settles P e e')
    (hg : ∀ a, P a → Eval.Settles Q (g a) (g' a)) : Eval.Settles Q (e >>= g) (e' >>= g') := by
  intro t
  obtain ⟨hsame, hclean, hdepth⟩ := h t
  rw [Eval.exec_bind, Eval.exec_bind, ← hsame]
  rcases hexec : e.exec t with ⟨r, t'⟩
  rw [hexec] at hclean hdepth
  cases hclean with
  | value ha => exact hg _ ha t'
  | error e => exact ⟨rfl, .error e, by simp⟩
  | thrown hv message => exact ⟨rfl, .thrown hv message, by simp⟩
  | fault f =>
    refine ⟨rfl, .fault f, fun h => hdepth ?_⟩
    cases h
    rfl

theorem naming (callee : Expr) {e e' : Eval α} (h : Eval.Settles P e e') :
    Eval.Settles P (Eval.naming callee e) (Eval.naming callee e') := by
  intro t
  obtain ⟨hsame, hclean, hdepth⟩ := h t
  rw [Eval.naming, Eval.naming, Eval.exec_tryCatch, Eval.exec_tryCatch, ← hsame]
  rcases hexec : e.exec t with ⟨r, t'⟩
  rw [hexec] at hclean hdepth
  have hne : ∀ failure : Failure, failure ≠ .fault .depth →
      ((throw failure : Eval α).exec t').1 ≠ .error (.fault .depth) :=
    fun failure hfailure heq => hfailure (Except.error.inj heq)
  refine ⟨rfl, ?_⟩
  cases hclean with
  | value ha => exact ⟨.value ha, by simp⟩
  | error e => exact ⟨.error e, hne _ (by simp)⟩
  | thrown hv message => exact ⟨.thrown hv message, hne _ (by simp)⟩
  | fault f =>
    cases f with
    | value | overflow | type => exact ⟨.error _, hne _ (by simp)⟩
    | depth => exact absurd rfl hdepth
    | _ => exact ⟨.fault _, hne _ (by simp)⟩

end Eval.Settles

/-! ## Calls -/

/-- Calling back what is no function runs none. -/
theorem callBack_settles {f item : Cell} (hf : f.FunctionFree) (hitem : item.FunctionFree)
    (position : Nat) :
    Eval.Settles FunctionFree (callBack invoke f item position)
      (callBack invoke' f item position) := by
  have hargs : ∀ v ∈ [item, .int position], v.FunctionFree :=
    List.forall_mem_cons.mpr ⟨hitem, List.forall_mem_singleton.mpr trivial⟩
  cases f with
  | function id g => cases hf
  | builtin b => exact .of_yields (runBuiltin_yields b hargs) (runBuiltin_faults b _)
  | method id receiver m =>
    have hreceiver := Value.functionFree_method.mp hf
    exact .of_yields (runMethod_yields hreceiver m hargs) (runMethod_faults receiver m _)
  | _ => exact .fault isNamed_type

theorem mapItems_settles {f : Cell} (hf : f.FunctionFree) {items : List Cell}
    (h : ∀ v ∈ items, v.FunctionFree) (position : Nat) :
    Eval.Settles (fun vs => ∀ v ∈ vs, v.FunctionFree) (mapItems invoke f position items)
      (mapItems invoke' f position items) := by
  induction items generalizing position with
  | nil => exact .pure nofun
  | cons v vs ih =>
    rw [List.forall_mem_cons] at h
    exact .bind (callBack_settles hf h.1 position) fun w hw =>
      .bind (ih h.2 (position + 1)) fun ws hws => .pure (List.forall_mem_cons.mpr ⟨hw, hws⟩)

theorem filterItems_settles {f : Cell} (hf : f.FunctionFree) {items : List Cell}
    (h : ∀ v ∈ items, v.FunctionFree) (position : Nat) :
    Eval.Settles (fun vs => ∀ v ∈ vs, v.FunctionFree) (filterItems invoke f position items)
      (filterItems invoke' f position items) := by
  induction items generalizing position with
  | nil => exact .pure nofun
  | cons v vs ih =>
    rw [List.forall_mem_cons] at h
    refine .bind (callBack_settles hf h.1 position) fun w _ =>
      .bind (ih h.2 (position + 1)) fun ws hws => .pure ?_
    split
    · exact List.forall_mem_cons.mpr ⟨h.1, hws⟩
    · exact hws

theorem newArray_settles {items : List Cell} (h : ∀ v ∈ items, v.FunctionFree) :
    Eval.Settles FunctionFree (Eval.newArray items) (Eval.newArray items) :=
  .of_yields (.newArray h) (.newArray items)

/-- A call whose callee and arguments hold no function runs none. -/
theorem call_settles {f : Cell} (hf : f.FunctionFree) {args : List Cell}
    (hargs : ∀ v ∈ args, v.FunctionFree) :
    Eval.Settles FunctionFree (call invoke f args) (call invoke' f args) := by
  rw [call.eq_def, call.eq_def invoke']
  split
  · have hitems := Value.functionFree_array.mp (Value.functionFree_method.mp hf)
    exact .bind (mapItems_settles (hargs _ List.mem_cons_self) hitems 0) fun _ => newArray_settles
  · have hitems := Value.functionFree_array.mp (Value.functionFree_method.mp hf)
    exact .bind (filterItems_settles (hargs _ List.mem_cons_self) hitems 0) fun _ => newArray_settles
  · cases hf
  · exact .of_yields (runBuiltin_yields _ hargs) (runBuiltin_faults _ _)
  · have hreceiver := Value.functionFree_method.mp hf
    exact .of_yields (runMethod_yields hreceiver _ hargs) (runMethod_faults _ _ _)
  · exact .fault isNamed_type

/-! ## Expressions -/

mutual

/-- An expression without functions in its scope is evaluated alike whatever running a function
does, and comes to a value without functions. -/
theorem evalExpr_settles (hs : s.FunctionFree) (e : Expr) :
    Eval.Settles FunctionFree (evalExpr invoke s e) (evalExpr invoke' s e) := by
  cases e with
  | literal l =>
    cases l <;> (rw [evalExpr, evalExpr]; exact .pure trivial)
  | undefined =>
    rw [evalExpr, evalExpr]
    exact .pure trivial
  | ident name =>
    rw [evalExpr, evalExpr]
    refine .of_yields (lookUp_yields hs name) ?_
    rw [lookUp]
    split
    · exact .pure _
    · exact .fail _
  | member target name =>
    rw [evalExpr, evalExpr]
    exact .bind (evalExpr_settles hs target) fun v hv =>
      .of_yields (property_yields hv _) (property_name_faults v name)
  | index target key =>
    rw [evalExpr, evalExpr]
    exact .bind (evalExpr_settles hs target) fun v hv => .bind (evalExpr_settles hs key) fun k _ =>
      .of_yields (property_yields hv k) ((property_faults v k).mono fun _ => IsNumeric.isNamed)
  | call callee args =>
    rw [evalExpr, evalExpr]
    refine .bind (evalExpr_settles hs callee) fun f hf => ?_
    split
    · exact .bind (evalItems_settles hs args) fun vs hvs => .naming callee (call_settles hf hvs)
    · exact .fail _
  | binary op left right =>
    rw [evalExpr, evalExpr]
    refine .bind (evalExpr_settles hs left) fun a ha => ?_
    split
    · exact .pure ha
    · exact .bind (evalExpr_settles hs right) fun b hb =>
        .of_yields (combine_yields op a hb) ((combine_faults op a b).mono fun _ => IsNumeric.isNamed)
  | unary op operand =>
    have hoperand := @evalExpr_settles hs operand
    rw [evalExpr.eq_def, evalExpr.eq_def invoke']
    dsimp only
    split
    · exact .pure trivial
    · exact .bind hoperand fun v _ => .pure (functionFree_applyUnary _ v)
  | conditional condition thenExpr elseExpr =>
    rw [evalExpr, evalExpr]
    refine .bind (evalExpr_settles hs condition) fun c _ => ?_
    split
    · exact evalExpr_settles hs thenExpr
    · exact evalExpr_settles hs elseExpr
  | array items =>
    rw [evalExpr, evalExpr]
    exact .bind (evalItems_settles hs items) fun vs => newArray_settles
  | object entries =>
    rw [evalExpr, evalExpr]
    exact .bind (evalEntries_settles hs entries) fun es hes =>
      .of_yields (.newObject (Entries.forall_values_ofList hes)) (.newObject _)
  | sequence items =>
    rw [evalExpr, evalExpr]
    exact .bind (evalItems_settles hs items) fun vs hvs =>
      .pure (functionFree_getD fun v hv => hvs v (List.mem_of_getLast? hv))

theorem evalItems_settles (hs : s.FunctionFree) (es : List Expr) :
    Eval.Settles (fun vs => ∀ v ∈ vs, v.FunctionFree) (evalItems invoke s es)
      (evalItems invoke' s es) := by
  cases es with
  | nil =>
    rw [evalItems, evalItems]
    exact .pure nofun
  | cons e es =>
    rw [evalItems, evalItems]
    exact .bind (evalExpr_settles hs e) fun v hv => .bind (evalItems_settles hs es) fun vs hvs =>
      .pure (List.forall_mem_cons.mpr ⟨hv, hvs⟩)

theorem evalEntries_settles (hs : s.FunctionFree) (es : List (String × Expr)) :
    Eval.Settles (fun vs => ∀ e ∈ vs, e.2.FunctionFree) (evalEntries invoke s es)
      (evalEntries invoke' s es) := by
  cases es with
  | nil =>
    rw [evalEntries, evalEntries]
    exact .pure nofun
  | cons e es =>
    rw [evalEntries, evalEntries]
    exact .bind (evalExpr_settles hs e.2) fun v hv => .bind (evalEntries_settles hs es) fun vs hvs =>
      .pure (List.forall_mem_cons.mpr ⟨hv, hvs⟩)

end

/-! ## Statements -/

/-- Two executions that do the same from a scope, end without functions and not at the depth of calls,
and leave a scope without functions. -/
def Run.Settles (P : α → Prop) (s : Scope) (r r' : Run α) : Prop :=
  ∀ t, r.exec s t = r'.exec s t ∧ Clean P (r.exec s t).1.1 ∧
    (r.exec s t).1.1 ≠ .error (.fault .depth) ∧ (r.exec s t).1.2.FunctionFree

namespace Run.Settles

theorem pure (hs : s.FunctionFree) {a : α} (h : P a) :
    Run.Settles P s (Pure.pure a : Run α) (Pure.pure a) :=
  fun _ => ⟨rfl, .value h, nofun, hs⟩

theorem ofEval (hs : s.FunctionFree) {e e' : Scope → Eval α} (h : Eval.Settles P (e s) (e' s)) :
    Run.Settles P s (Run.ofEval e) (Run.ofEval e') := by
  intro t
  obtain ⟨hsame, hclean, hdepth⟩ := h t
  rw [Run.exec_ofEval, Run.exec_ofEval, ← hsame]
  exact ⟨rfl, hclean, hdepth, hs⟩

theorem set (hs : s.FunctionFree) (name : String) {v : Cell} (hv : v.FunctionFree) :
    Run.Settles (fun _ => True) s (Run.set name v) (Run.set name v) :=
  fun _ => ⟨rfl, .value trivial, nofun, hs.set name hv⟩

theorem bind {r r' : Run α} {g g' : α → Run β} (h : Run.Settles P s r r')
    (hg : ∀ a s', P a → s'.FunctionFree → Run.Settles Q s' (g a) (g' a)) :
    Run.Settles Q s (r >>= g) (r' >>= g') := by
  intro t
  obtain ⟨hsame, hclean, hdepth, hs⟩ := h t
  rw [Run.exec_bind, Run.exec_bind, ← hsame]
  rcases hexec : r.exec s t with ⟨⟨o, s'⟩, t'⟩
  rw [hexec] at hclean hdepth hs
  cases hclean with
  | value ha => exact hg _ s' ha hs t'
  | error e => exact ⟨rfl, .error e, by simp, hs⟩
  | thrown hv message => exact ⟨rfl, .thrown hv message, by simp, hs⟩
  | fault f =>
    refine ⟨rfl, .fault f, fun h => hdepth ?_, hs⟩
    cases h
    rfl

end Run.Settles

/-- A statement that goes on leaves a scope without functions. -/
theorem step_settles (hs : s.FunctionFree) (st : Stmt) :
    Run.Settles (fun _ => True) s (st.step invoke) (st.step invoke') := by
  cases st with
  | declare word name value =>
    cases value with
    | none => exact .set hs name trivial
    | some e => exact .bind (.ofEval hs (evalExpr_settles hs e)) fun v s' hv hs' => .set hs' name hv
  | assign name e =>
    refine .bind (.ofEval hs ?_) fun v s' hv hs' => .set hs' name hv
    split
    · exact evalExpr_settles hs e
    · exact .fail _
  | expr e =>
    exact .bind (.ofEval hs (evalExpr_settles hs e)) fun v s' _ hs' => .pure hs' trivial
  | ret value => exact .pure hs trivial
  | throw e => exact .pure hs trivial

/-- A statement that leaves the function comes to a value without functions or throws one. -/
theorem leave_settles (hs : s.FunctionFree) {st : Stmt} (hst : st.leaves = true) :
    Run.Settles FunctionFree s (runStmts invoke [st]) (runStmts invoke' [st]) := by
  cases st with
  | ret value =>
    cases value with
    | none => exact .pure hs trivial
    | some e => exact .ofEval hs (evalExpr_settles hs e)
  | throw e =>
    refine .ofEval hs (.bind (evalExpr_settles hs e) fun v hv => ?_)
    exact .of_yields (.throwValue hv) ((throwValue_faults v).mono fun _ => isNamed_of_isUnwritable)
  | _ => cases hst

theorem runStmts_settles (hs : s.FunctionFree) (body : List Stmt) :
    Run.Settles FunctionFree s (runStmts invoke body) (runStmts invoke' body) := by
  induction body generalizing s with
  | nil => exact .pure hs trivial
  | cons st body ih =>
    cases hst : st.leaves with
    | true =>
      rw [runStmts_of_leaves hst body, @runStmts_of_leaves invoke' st hst body]
      exact leave_settles hs hst
    | false =>
      rw [runStmts_of_stays hst, runStmts_of_stays hst]
      exact .bind (step_settles hs st) fun _ s' _ hs' => ih hs'

/-! ## Functions -/

theorem functionFree_bindParams (params : List String) {args : List Cell}
    (h : ∀ v ∈ args, v.FunctionFree) : (bindParams params args).FunctionFree := by
  induction params using List.reverseRecOn with
  | nil => exact nofun
  | append_singleton params name ih =>
    rw [bindParams_concat]
    exact ih.set name (functionFree_getD fun v hv => h v (List.mem_of_getElem? hv))

/-- How the call of a function ends on arguments without functions. -/
inductive CleanCall : Except Failure Cell → Prop
  | value {v : Cell} (h : v.FunctionFree) : CleanCall (.ok v)
  | failure (message : String) : CleanCall (.error (.function message))
  | fault {f : Fault} (h : f ≠ .depth) : CleanCall (.error (.fault f))

theorem invokeWithin_settles (g : PropFunction) {args : List Cell}
    (h : ∀ v ∈ args, v.FunctionFree) (depth depth' : Nat) (t : Trace) :
    (invokeWithin (depth + 1) g args).exec t = (invokeWithin (depth' + 1) g args).exec t ∧
      CleanCall ((invokeWithin (depth + 1) g args).exec t).1 := by
  obtain ⟨params, source, body⟩ := g
  cases body with
  | none => exact ⟨rfl, .failure _⟩
  | some body =>
    obtain ⟨hsame, hclean, hdepth, -⟩ :=
      @runStmts_settles (invokeWithin depth) (invokeWithin depth') _
        (functionFree_bindParams params h) body t
    rw [exec_call, exec_call, ← hsame]
    refine ⟨rfl, ?_⟩
    rcases hexec : (runStmts (invokeWithin depth) body).exec (bindParams params args) t with
      ⟨⟨o, s'⟩, t'⟩
    rw [hexec] at hclean hdepth
    cases hclean with
    | value hv => exact .value hv
    | error e => exact .failure _
    | thrown hv message => exact .failure _
    | fault f =>
      refine .fault ?_
      rintro rfl
      exact hdepth rfl

/-- Without functions in the scope, statements do the same whatever the bound on the depth of calls,
even if no call is allowed at all. They end in a value without functions, an error, a thrown value
without functions or a fault other than that bound, and leave a scope without functions. So any bound
that allows the call itself serves for the call of a function on arguments without functions. -/
theorem functionFree_settles :
    (∀ (body : List Stmt) (s : Scope), s.FunctionFree → ∀ tr,
      (∀ depth, (runStmts (invokeWithin depth) body).exec s tr = (execute body).exec s tr) ∧
      Clean FunctionFree ((execute body).exec s tr).1.1 ∧
      ((execute body).exec s tr).1.1 ≠ .error (.fault .depth) ∧
      ((execute body).exec s tr).1.2.FunctionFree) ∧
    ∀ (g : PropFunction) (args : List Cell), (∀ v ∈ args, v.FunctionFree) → ∀ tr,
      (∀ depth, (invokeWithin (depth + 1) g args).exec tr = (Script.invoke g args).exec tr) ∧
      CleanCall ((Script.invoke g args).exec tr).1 := by
  refine ⟨fun body s hs tr => ?_, fun g args hargs tr => ?_⟩
  · have hsettles := @runStmts_settles Script.invoke Script.invoke s hs body tr
    exact ⟨fun depth => (runStmts_settles hs body tr).1, hsettles.2⟩
  · refine ⟨fun depth => (invokeWithin_settles g hargs depth (depthLimit - 1) tr).1, ?_⟩
    exact (invokeWithin_settles g hargs (depthLimit - 1) 0 tr).2

/-- Statements that call back a built-in function through a method that has become a value. -/
def mappingBody : List Stmt := [
  .declare .letWord "each" (some (.member (.ident "xs") "map")),
  .ret (some (.call (.ident "each") [.member (.ident "Math") "max"]))]

def twoAndThree : Cell := .array (.cell 0) [.int 2, .int 3]

theorem functionFree_settles_mapping :
    Scope.FunctionFree [("xs", twoAndThree)] ∧
    ((execute mappingBody).exec [("xs", twoAndThree)] ⟨[], 1⟩).1.1 =
      .ok (.array (.cell 2) [.int 2, .int 3]) ∧
    (runStmts (invokeWithin 0) mappingBody).exec [("xs", twoAndThree)] ⟨[], 1⟩ =
      (execute mappingBody).exec [("xs", twoAndThree)] ⟨[], 1⟩ ∧
    (invokeWithin 1 ⟨["xs"], "", some mappingBody⟩ [twoAndThree]).exec ⟨[], 1⟩ =
      (Script.invoke ⟨["xs"], "", some mappingBody⟩ [twoAndThree]).exec ⟨[], 1⟩ := by
  have hxs : twoAndThree.FunctionFree := by simp [twoAndThree, FunctionFree]
  have hs : Scope.FunctionFree [("xs", twoAndThree)] := List.forall_mem_singleton.mpr hxs
  have hargs : ∀ v ∈ [twoAndThree], v.FunctionFree := List.forall_mem_singleton.mpr hxs
  refine ⟨hs, rfl, ?_, ?_⟩
  · exact (functionFree_settles.1 mappingBody _ hs ⟨[], 1⟩).1 0
  · exact (functionFree_settles.2 ⟨["xs"], "", some mappingBody⟩ _ hargs ⟨[], 1⟩).1 0

end Script
end Vitrine
