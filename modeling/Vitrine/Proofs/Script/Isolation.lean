import Vitrine.Proofs.Script.Escapes

/-!
# What evaluation can see and change

An expression sees the names that occur in it and nothing else of its scope, and statements change
no binding but those that they declare or assign (`evaluation_isolated`).
-/
namespace Vitrine
namespace Script

variable {invoke : Invoke} {s t : Scope} {tr : Trace}

/-! ## The names that occur in code -/

mutual

/-- The names that an expression looks up. The names of properties are none of them. -/
def Expr.names : Expr → List String
  | .literal _ | .undefined => []
  | .ident name => [name]
  | .member target _ => target.names
  | .index target key => target.names ++ key.names
  | .call callee args => callee.names ++ Expr.listNames args
  | .binary _ left right => left.names ++ right.names
  | .unary _ operand => operand.names
  | .conditional c t e => c.names ++ t.names ++ e.names
  | .array items | .sequence items => Expr.listNames items
  | .object entries => Expr.entryNames entries

def Expr.listNames : List Expr → List String
  | [] => []
  | e :: es => e.names ++ Expr.listNames es

def Expr.entryNames : List (String × Expr) → List String
  | [] => []
  | (_, e) :: es => e.names ++ Expr.entryNames es

end

/-- The names that occur in a statement. -/
def Stmt.names (st : Stmt) : List String := st.bound?.toList ++ (st.expr?.map Expr.names).getD []

/-- The names that occur in some statements. -/
def bodyNames (body : List Stmt) : List String := body.flatMap Stmt.names

/-! ## Scopes -/

/-- Scopes in which some names have the same values, or no value in both of them. -/
def Scope.Agree (seen : List String) (s t : Scope) : Prop :=
  ∀ name ∈ seen, s.get? name = t.get? name

namespace Scope

variable {seen others : List String}

namespace Agree

theorem mono (h : Agree others s t) (hsub : seen ⊆ others) : Agree seen s t :=
  fun name hname => h name (hsub hname)

theorem left (h : Agree (seen ++ others) s t) : Agree seen s t :=
  h.mono (List.subset_append_left seen others)

theorem right (h : Agree (others ++ seen) s t) : Agree seen s t :=
  h.mono (List.subset_append_right others seen)

/-- Scopes agree as before when one name gets the same value in both. -/
theorem set (h : Agree seen s t) (name : String) (v : Cell) :
    Agree seen (s.set name v) (t.set name v) := by
  intro other hother
  by_cases hne : other = name
  · rw [hne, get?_set_self, get?_set_self]
  · rw [get?_set_of_ne hne, get?_set_of_ne hne]
    exact h other hother

end Agree
end Scope

open Scope (Agree)

/-! ## Expressions -/

theorem lookUp?_congr {name : String} (h : s.get? name = t.get? name) :
    lookUp? s name = lookUp? t name := by
  rw [lookUp?, lookUp?, h]

mutual

/-- An expression is evaluated alike in scopes that agree on its names. -/
theorem evalExpr_congr (e : Expr) (h : Agree e.names s t) :
    evalExpr invoke s e = evalExpr invoke t e := by
  cases e with
  | literal l => cases l <;> rw [evalExpr, evalExpr]
  | undefined => rw [evalExpr, evalExpr]
  | ident name =>
    rw [Expr.names] at h
    rw [evalExpr, evalExpr, lookUp, lookUp, lookUp?_congr (h name List.mem_cons_self)]
  | member target name =>
    rw [Expr.names] at h
    rw [evalExpr, evalExpr, evalExpr_congr target h]
  | index target key =>
    rw [Expr.names] at h
    rw [evalExpr, evalExpr, evalExpr_congr target h.left, evalExpr_congr key h.right]
  | call callee args =>
    rw [Expr.names] at h
    rw [evalExpr, evalExpr, evalExpr_congr callee h.left, evalItems_congr args h.right]
  | binary op left right =>
    rw [Expr.names] at h
    rw [evalExpr, evalExpr, evalExpr_congr left h.left, evalExpr_congr right h.right]
  | unary op operand =>
    rw [Expr.names] at h
    have hoperand := evalExpr_congr operand h
    rw [evalExpr.eq_def, evalExpr.eq_def invoke t]
    dsimp only
    -- The type of a name is asked for without looking the name up.
    split
    · rw [Expr.names] at h
      rw [lookUp?_congr (h _ List.mem_cons_self)]
    · rw [hoperand]
  | conditional condition thenExpr elseExpr =>
    rw [Expr.names] at h
    rw [evalExpr, evalExpr, evalExpr_congr condition h.left.left,
      evalExpr_congr thenExpr h.left.right, evalExpr_congr elseExpr h.right]
  | array items =>
    rw [Expr.names] at h
    rw [evalExpr, evalExpr, evalItems_congr items h]
  | object entries =>
    rw [Expr.names] at h
    rw [evalExpr, evalExpr, evalEntries_congr entries h]
  | sequence items =>
    rw [Expr.names] at h
    rw [evalExpr, evalExpr, evalItems_congr items h]

theorem evalItems_congr (es : List Expr) (h : Agree (Expr.listNames es) s t) :
    evalItems invoke s es = evalItems invoke t es := by
  cases es with
  | nil => rw [evalItems, evalItems]
  | cons e es =>
    rw [Expr.listNames] at h
    rw [evalItems, evalItems, evalExpr_congr e h.left, evalItems_congr es h.right]

theorem evalEntries_congr (es : List (String × Expr)) (h : Agree (Expr.entryNames es) s t) :
    evalEntries invoke s es = evalEntries invoke t es := by
  cases es with
  | nil => rw [evalEntries, evalEntries]
  | cons e es =>
    rw [Expr.entryNames] at h
    rw [evalEntries, evalEntries, evalExpr_congr e.2 h.left, evalEntries_congr es h.right]

end

/-! ## Statements -/

/-- Two executions with the same outcome and the same trace, which leave scopes that agree. -/
structure Alike {α : Type} (seen : List String)
    (x y : (Except Failure α × Scope) × Trace) : Prop where
  outcome : x.1.1 = y.1.1
  trace : x.2 = y.2
  scopes : Agree seen x.1.2 y.1.2

namespace Alike

variable {α β : Type} {seen : List String}

/-- What does not touch the scope is alike if it comes to the same in both scopes. -/
theorem ofEval {e : Scope → Eval α} (he : e s = e t) (h : Agree seen s t) (tr : Trace) :
    Alike seen ((Run.ofEval e).exec s tr) ((Run.ofEval e).exec t tr) := by
  rw [Run.exec_ofEval, Run.exec_ofEval, he]
  exact ⟨rfl, rfl, h⟩

theorem set (h : Agree seen s t) (name : String) (v : Cell) (tr : Trace) :
    Alike seen ((Run.set name v).exec s tr) ((Run.set name v).exec t tr) :=
  ⟨rfl, rfl, h.set name v⟩

theorem bind {r : Run α} {f : α → Run β} {tr : Trace}
    (hr : Alike seen (r.exec s tr) (r.exec t tr))
    (hf : ∀ a s' t' tr', Agree seen s' t' → Alike seen ((f a).exec s' tr') ((f a).exec t' tr')) :
    Alike seen ((r >>= f).exec s tr) ((r >>= f).exec t tr) := by
  rw [Run.exec_bind, Run.exec_bind]
  rcases hs : r.exec s tr with ⟨⟨x, s'⟩, tr'⟩
  rcases ht : r.exec t tr with ⟨⟨y, t'⟩, tr''⟩
  rw [hs, ht] at hr
  obtain ⟨rfl, rfl, hagree⟩ := hr
  cases x with
  | error failure => exact ⟨rfl, rfl, hagree⟩
  | ok a => exact hf a s' t' tr' hagree

end Alike

variable {seen : List String}

theorem Stmt.names_subset_right {st : Stmt} {e : Expr} (h : st.expr? = some e) :
    e.names ⊆ st.names := by
  rw [Stmt.names, h]
  exact List.subset_append_right _ _

/-- One statement that goes on does so alike. -/
theorem step_alike {st : Stmt} (hst : st.names ⊆ seen) (h : Agree seen s t) (tr : Trace) :
    Alike seen ((st.step invoke).exec s tr) ((st.step invoke).exec t tr) := by
  have hvalue : ∀ e, st.expr? = some e → evalExpr invoke s e = evalExpr invoke t e := fun e he =>
    evalExpr_congr e (h.mono (List.Subset.trans (Stmt.names_subset_right he) hst))
  cases st with
  | declare word name value =>
    cases value with
    | none => exact .set h name _ tr
    | some e => exact (Alike.ofEval (hvalue e rfl) h tr).bind fun v _ _ tr' h' => .set h' name v tr'
  | assign name e =>
    have hname : s.get? name = t.get? name := h name (hst List.mem_cons_self)
    refine (Alike.ofEval ?_ h tr).bind fun v _ _ tr' h' => .set h' name v tr'
    simp only [hname, hvalue e rfl]
  | expr e =>
    exact (Alike.ofEval (hvalue e rfl) h tr).bind fun _ _ _ _ h' => ⟨rfl, rfl, h'⟩
  | ret value => exact ⟨rfl, rfl, h⟩
  | throw e => exact ⟨rfl, rfl, h⟩

/-- So does one that leaves the function. -/
theorem leave_alike {st : Stmt} (hleaves : st.leaves = true) (hst : st.names ⊆ seen)
    (h : Agree seen s t) (tr : Trace) :
    Alike seen ((runStmts invoke [st]).exec s tr) ((runStmts invoke [st]).exec t tr) := by
  have hvalue : ∀ e, st.expr? = some e → evalExpr invoke s e = evalExpr invoke t e := fun e he =>
    evalExpr_congr e (h.mono (List.Subset.trans (Stmt.names_subset_right he) hst))
  cases st with
  | ret value =>
    cases value with
    | none => exact ⟨rfl, rfl, h⟩
    | some e => exact .ofEval (hvalue e rfl) h tr
  | throw e =>
    refine .ofEval ?_ h tr
    simp only [hvalue e rfl]
  | _ => cases hleaves

theorem runStmts_alike {body : List Stmt} (hbody : bodyNames body ⊆ seen) (h : Agree seen s t)
    (tr : Trace) :
    Alike seen ((runStmts invoke body).exec s tr) ((runStmts invoke body).exec t tr) := by
  induction body generalizing s t tr with
  | nil => exact ⟨rfl, rfl, h⟩
  | cons st body ih =>
    rw [bodyNames, List.flatMap_cons, List.append_subset] at hbody
    cases hst : st.leaves with
    | true =>
      rw [runStmts_of_leaves hst]
      exact leave_alike hst hbody.1 h tr
    | false =>
      rw [runStmts_of_stays hst]
      exact (step_alike hbody.1 h tr).bind fun _ _ _ tr' h' => ih hbody.2 h' tr'

/-! ## What statements leave alone -/

/-- A scope that statements leave behind another one: what they do not bind has kept its value, and
they have brought nothing into the scope but what they declare. -/
structure Confines (body : List Stmt) (s s' : Scope) : Prop where
  kept : ∀ name, (∀ st ∈ body, st.bound? ≠ some name) → s'.get? name = s.get? name
  known : ∀ name, (s'.get? name).isSome = true →
    (s.get? name).isSome = true ∨ ∃ st ∈ body, st.declares name = true

theorem Confines.refl (body : List Stmt) (s : Scope) : Confines body s s :=
  ⟨fun _ _ => rfl, fun _ hname => Or.inl hname⟩

/-- The scope behind one statement is confined, and so is what the others leave of that. -/
theorem Rebinds.confines {st : Stmt} {body : List Stmt} {s s' s'' : Scope} (h : Rebinds st s s')
    (hbody : Confines body s' s'') : Confines (st :: body) s s'' where
  kept name hname := by
    rw [hbody.kept name fun other hother => hname other (List.mem_cons_of_mem _ hother)]
    exact h.get?_eq (hname st List.mem_cons_self)
  known name hname := by
    rcases hbody.known name hname with hknown | ⟨other, hother, hdeclares⟩
    · rcases h.known hknown with hdeclares | hknown
      · exact Or.inr ⟨st, List.mem_cons_self, hdeclares⟩
      · exact Or.inl hknown
    · exact Or.inr ⟨other, List.mem_cons_of_mem _ hother, hdeclares⟩

theorem scope_of_leaves {st : Stmt} (hst : st.leaves = true) (s : Scope) (tr : Trace) :
    ((runStmts invoke [st]).exec s tr).1.2 = s := by
  cases st with
  | ret value => cases value <;> rfl
  | throw e => rfl
  | _ => cases hst

theorem runStmts_confines (invoke : Invoke) (body : List Stmt) (s : Scope) (tr : Trace) :
    Confines body s ((runStmts invoke body).exec s tr).1.2 := by
  induction body generalizing s tr with
  | nil => exact .refl [] s
  | cons st body ih =>
    cases hst : st.leaves with
    | true =>
      rw [runStmts_of_leaves hst, scope_of_leaves hst]
      exact .refl _ s
    | false =>
      have hstep := rebinds_step invoke st s tr
      rw [runStmts_of_stays hst, Run.exec_bind]
      rcases hexec : (st.step invoke).exec s tr with ⟨⟨o, s'⟩, tr'⟩
      rw [hexec] at hstep
      cases o with
      | error failure => exact hstep.confines (.refl body s')
      | ok u => exact hstep.confines (ih s' tr')

/-! ## Isolation -/

/-- Code is isolated from all of its scope but the names that occur in it. In scopes that agree on
these, an expression comes to the same value or failure with the same trace, and so do statements,
which leave scopes that agree again, however they end. Statements bind nothing but the names that
they declare or assign, and bring nothing into the scope but the names that they declare. -/
theorem evaluation_isolated :
    (∀ (e : Expr) (s t : Scope), Agree e.names s t →
      ∀ tr, (evaluate e s).exec tr = (evaluate e t).exec tr) ∧
    (∀ (body : List Stmt) (s t : Scope), Agree (bodyNames body) s t →
      ∀ tr, Alike (bodyNames body) ((execute body).exec s tr) ((execute body).exec t tr)) ∧
    ∀ (body : List Stmt) (s : Scope) (tr : Trace),
      Confines body s ((execute body).exec s tr).1.2 := by
  refine ⟨fun e s t h tr => ?_, fun body s t h tr => ?_, fun body s tr => ?_⟩
  · rw [evaluate, evaluate, evalExpr_congr e h]
  · exact runStmts_alike (List.Subset.refl _) h tr
  · exact runStmts_confines invoke body s tr

/-- Statements that declare a name, assign another one and throw. -/
def sampleBody : List Stmt := [
  .declare .letWord "c" (some (.call (.ident "f") [.ident "a"])),
  .assign "a" (.unary .typeOf (.ident "x")),
  .throw (.binary .add (.ident "c") (.ident "a"))]

/-- Two scopes that differ in a name which is not seen. -/
theorem evaluation_isolated_sample :
    Agree (Expr.names (.member (.ident "a") "y")) [("a", .str "A"), ("y", .int 1)] [("a", .str "A")] ∧
    (evaluate (.member (.ident "a") "y") [("a", .str "A"), ("y", .int 1)]).exec .start =
      (evaluate (.member (.ident "a") "y") [("a", .str "A")]).exec .start ∧
    Agree (bodyNames sampleBody) [("y", .null), ("a", .int 1), ("f", .builtin .string)]
      [("f", .builtin .string), ("a", .int 1)] ∧
    Alike (bodyNames sampleBody)
      ((execute sampleBody).exec [("y", .null), ("a", .int 1), ("f", .builtin .string)] .start)
      ((execute sampleBody).exec [("f", .builtin .string), ("a", .int 1)] .start) := by
  have hmember : Agree (Expr.names (.member (.ident "a") "y")) [("a", .str "A"), ("y", .int 1)]
      [("a", .str "A")] := by
    simp [Agree, Expr.names, Scope.get?]
  have hbody : Agree (bodyNames sampleBody)
      [("y", .null), ("a", .int 1), ("f", .builtin .string)]
      [("f", .builtin .string), ("a", .int 1)] := by
    simp [Agree, bodyNames, sampleBody, Stmt.names, Stmt.bound?, Stmt.expr?, Expr.names,
      Expr.listNames, Scope.get?, List.lookup]
  exact ⟨hmember, evaluation_isolated.1 _ _ _ hmember .start, hbody,
    evaluation_isolated.2.1 _ _ _ hbody .start⟩

end Script
end Vitrine
