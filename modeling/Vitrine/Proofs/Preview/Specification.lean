import Vitrine.Proofs.Preview.Function
import Vitrine.Proofs.Script.Sequencing

/-!
# What specified functions do

A function that is specified to throw does so with its message as it stands, once its body has run to
its end; a body with a `return` leaves the function before it throws. A function that returns one of its
parameters returns the argument there, if the parameter is read as the name that it is bound under.
-/
namespace Vitrine
namespace Preview

open Script (Lexes Cell Failure Scope Stmt Trace bindParams invokeWithin runStmts)

/-! ## Functions that throw -/

section Throwing

variable {spec : FunctionSpec} {location : Location} {f : PropFunction} {message : String}

/-- A function that throws is its body with the throwing of the message behind it. -/
theorem throwing_eq (hbuilt : buildFunction spec location = .ok f)
    (hthrows : spec.throwsMessage = some message) :
    ∃ body, Script.parseStatements spec.bodyText = .ok body ∧
      f = ⟨spec.parameters, f.source, some (body ++ [.throw (.literal (.string message))])⟩ := by
  obtain ⟨body, last, line, hbody, hlast, rfl⟩ := buildFunction_eq_ok hbuilt
  rw [lastStatement, hthrows] at hlast
  cases hlast
  exact ⟨body, hbody, rfl⟩

/-- The thrown text is the message of the failure, however the text would be shown. -/
theorem exec_throw_message (invoke : Script.Invoke) (message : String) (s : Scope) (t : Trace) :
    (runStmts invoke [.throw (.literal (.string message))]).exec s t =
      ((.error (.thrown (.str message) message), s), t) := rfl

/-- A function that is specified to throw does what its body does, and then fails with exactly its
message: if the body runs to its end without a `return`, the call ends in that failure; a body that
returns ends the call with its value, and a body that fails with its own failure. -/
theorem buildFunction_throws (hbuilt : buildFunction spec location = .ok f)
    (hthrows : spec.throwsMessage = some message) :
    ∃ body, Script.parseStatements spec.bodyText = .ok body ∧ ∀ depth args t o s t',
      (runStmts (invokeWithin depth) body).exec (bindParams spec.parameters args) t = ((o, s), t') →
        (∀ v, o = .ok v → (∀ value, Stmt.ret value ∉ body) →
          (invokeWithin (depth + 1) f args).exec t = (.error (.function message), t')) ∧
        (∀ v, o = .ok v → (∃ value, Stmt.ret value ∈ body) →
          (invokeWithin (depth + 1) f args).exec t = (.ok v, t')) ∧
        (∀ failure, o = .error failure →
          (invokeWithin (depth + 1) f args).exec t = (.error (failure.inFunction f.source), t')) := by
  obtain ⟨body, hbody, hf⟩ := throwing_eq hbuilt hthrows
  refine ⟨body, hbody, fun depth args t o s t' hexec => ?_⟩
  rw [hf, Script.exec_call]
  dsimp only
  refine ⟨?_, ?_, ?_⟩
  · rintro v rfl hreturn
    rw [Script.exec_runStmts_append hreturn hexec, exec_throw_message]
    rfl
  · rintro v rfl ⟨value, hvalue⟩
    have hleaves : body.any Stmt.leaves = true := List.any_eq_true.mpr ⟨_, hvalue, rfl⟩
    rw [Script.runStmts_append_of_leaves hleaves, hexec]
    rfl
  · rintro failure rfl
    rw [Script.exec_runStmts_append_error hexec]
    rfl

/-- A function with a body that only declares something. -/
def throwingSpec : FunctionSpec where
  parameters := ["a"]
  bodyStatements := some "let b = a"
  returnExpressions := []
  throwsMessage := some "no \"b\""

/-- The thrown message has its quotes as they are, whatever the source makes of them. -/
theorem buildFunction_throws_sample : ∃ f, buildFunction throwingSpec .nowhere = .ok f ∧
    f.source = "(a) => \x7b\nlet b = a\nthrow new Error(\"no \\\"b\\\"\");\n\x7d" ∧
      throwingSpec.throwsMessage = some "no \"b\"" ∧
        (Script.invoke f [.null]).exec .start = (.error (.function "no \"b\""), .start) := by
  have hbuilt : (buildFunction throwingSpec .nowhere).map PropFunction.source =
      .ok "(a) => \x7b\nlet b = a\nthrow new Error(\"no \\\"b\\\"\");\n\x7d" := by cbv
  obtain ⟨f, hf, hsource⟩ := map_eq_ok.mp hbuilt
  obtain ⟨body, hbody, hcalls⟩ := buildFunction_throws hf rfl
  have hparse : Script.parseStatements throwingSpec.bodyText =
      .ok [.declare .letWord "b" (some (.ident "a"))] := by cbv
  obtain rfl := Except.ok.inj (hbody.symm.trans hparse)
  have hexec : (runStmts (invokeWithin 189) [.declare .letWord "b" (some (.ident "a"))]).exec
      (bindParams throwingSpec.parameters [.null]) .start =
        ((.ok .undefined, [("a", .null), ("b", .null)]), .start) := by rfl
  have hreturn : ∀ value, Stmt.ret value ∉ [Stmt.declare .letWord "b" (some (.ident "a"))] := by
    simp
  exact ⟨f, hf, hsource, rfl, (hcalls _ _ _ _ _ _ hexec).1 _ rfl hreturn⟩

end Throwing

/-! ## Functions that return a parameter -/

section Parameters

variable {params : List String} {statements : Option String} {p text : String}
  {location : Location} {f : PropFunction} {body : List Stmt} {i : Nat}

/-- The specification of a function that runs statements and returns an expression. -/
def returning (params : List String) (statements : Option String) (text : String) : FunctionSpec :=
  ⟨params, statements, [text], none⟩

/-- The text of a function that returns an expression. -/
def returningText (params : List String) (statements : Option String) (text : String) : String :=
  let bodyText := (returning params statements text).bodyText
  Script.arrowText params ((if bodyText = "" then [] else [bodyText]) ++ ["return " ++ text ++ ";"])

/-- How the only returned expression of a function is read. -/
def readReturn (text : String) (location : Location) : Result Script.Expr :=
  parsed (Script.parseExpr text) (.invalidReturn text)
    (location.under (".returnExpressions[" ++ Decimal.intText 0 ++ "]"))

theorem lastStatement_returning : lastStatement (returning params statements text) location =
    (readReturn text location).map fun e => (.ret (some e), "return " ++ text ++ ";") := by
  rw [lastStatement, returning, readReturn]
  dsimp only
  rw [parseReturns]
  cases parsed (Script.parseExpr text) (.invalidReturn text)
    (location.under (".returnExpressions[" ++ Decimal.intText 0 ++ "]")) <;> rfl

theorem buildFunction_returning
    (hbody : Script.parseStatements (returning params statements text).bodyText = .ok body) :
    buildFunction (returning params statements text) location =
      (readReturn text location).map fun e =>
        ⟨params, returningText params statements text, some (body ++ [.ret (some e)])⟩ := by
  rw [buildFunction_eq hbody, lastStatement_returning]
  cases readReturn text location <;> rfl

/-- Parameters that are accepted. -/
theorem isParameterName_of_valid {names : List String}
    (h : FunctionSpec.checkParameters params = .valid names) (hp : p ∈ params) :
    isParameterName p = true := by
  rw [FunctionSpec.checkParameters] at h
  split at h
  · cases h
  · next hnone => simpa using List.find?_eq_none.mp hnone p hp

/-- A parameter is read as a word, which is the parameter or all of it but a line feed. -/
theorem exists_word (h : isParameterName p = true) : ∃ word, Script.IsName word ∧
    Lexes p.toList [Script.wordLexeme word] := by
  have hname : ∀ {cs : List Char}, dropFinalNewline p.toList = cs →
      Script.IsName (String.ofList cs) := by
    rintro cs hcs
    rw [isParameterName, hcs] at h
    cases cs with
    | nil => cases h
    | cons c cs =>
      rw [Bool.and_eq_true, List.all_eq_true] at h
      exact ⟨c, cs, String.toList_ofList, h.1, h.2⟩
  by_cases hlast : p.toList.getLast? = some '\n'
  · have hword := hname (if_pos hlast)
    have htext : p.toList = p.toList.dropLast ++ ['\n'] :=
      (List.dropLast_append_getLast? '\n' hlast).symm
    have hlexes := Script.lexes_word hword (s := '\n') (by decide)
      (Script.lexes_nil.skip (by decide))
    rw [String.toList_ofList, ← htext] at hlexes
    exact ⟨_, hword, hlexes⟩
  · have hword := hname (if_neg hlast)
    rw [String.ofList_toList] at hword
    exact ⟨p, hword, hword.lexes.1⟩

/-- Whenever the statements in its body run to their end, the function returns the argument at a
position, or undefined if there is none. -/
def Returns (body : List Stmt) (f : PropFunction) (i : Nat) : Prop :=
  ∀ args t v s t', (runStmts (invokeWithin 189) body).exec (bindParams f.params args) t =
      ((.ok v, s), t') → (Script.invoke f args).exec t = (.ok ((args[i]?).getD .undefined), t')

theorem exec_returning {source : String} {e : Script.Expr} {args : List Cell} {t t' : Trace}
    {v : Cell} {s : Scope} (hreturn : ∀ value, Stmt.ret value ∉ body)
    (h : (runStmts (invokeWithin 189) body).exec (bindParams params args) t = ((.ok v, s), t')) :
    (Script.invoke ⟨params, source, some (body ++ [.ret (some e)])⟩ args).exec t =
      let o := (Script.evalExpr (invokeWithin 189) s e).exec t'
      (o.1.mapError (Failure.inFunction source), o.2) := by
  rw [Script.invoke, Script.depthLimit, Script.exec_call, Script.exec_runStmts_append hreturn h,
    runStmts, Script.Run.exec_ofEval]

/-- A parameter that is a plain name is what statements leave it that do not bind it. -/
theorem returns_of_isPlainName (hplain : Script.IsPlainName p) (hi : params[i]? = some p)
    (hlast : ∀ j, params[j]? = some p → j ≤ i)
    (hbody : Script.parseStatements (returning params statements p).bodyText = .ok body)
    (hbound : ∀ st ∈ body, st.bound? ≠ some p) (hreturn : ∀ value, Stmt.ret value ∉ body) :
    ∃ f, buildFunction (returning params statements p) location = .ok f ∧ Returns body f i := by
  refine ⟨_, by rw [buildFunction_returning hbody, readReturn, hplain.parseExpr]; rfl, fun args t v s t' h => ?_⟩
  have hvalue : s.get? p = some ((args[i]?).getD .undefined) :=
    (Script.get?_runStmts hbound h).trans (Script.get?_bindParams_last hi hlast args)
  rw [exec_returning hreturn h, Script.evalExpr, Script.lookUp, Script.lookUp?, hvalue]
  rfl

/-- A parameter that is no plain name does not return its argument: it is read as something else, to
which the argument makes no difference. -/
theorem isPlainName_of_returns (hp : isParameterName p = true) (hi : params[i]? = some p)
    (hbuilt : buildFunction (returning params none p) location = .ok f) (hf : Returns [] f i) :
    Script.IsPlainName p := by
  obtain ⟨word, hword, hlexes⟩ := exists_word hp
  have hnone : Script.parseStatements (returning params none p).bodyText = .ok [] :=
    parseStatements_empty
  rw [buildFunction_returning hnone, map_eq_ok] at hbuilt
  obtain ⟨e, he, rfl⟩ := hbuilt
  obtain ⟨xs, hxs, hderives⟩ := Script.derives_parseExpr (parsed_eq_ok he)
  obtain rfl := hxs.unique hlexes
  have hliteral : (Script.wordLexeme word).literal? = some (.ok e) := hderives.isLiteral
  by_contra hplain
  have hother : Script.kindOfWord word = .ident → word ≠ p := by
    rintro hkind rfl
    exact hplain ⟨hword, hkind⟩
  -- null at the position and nothing at the others makes a difference to the parameter alone
  have hsame : ∀ (j : Nat), params[j]? = some word → Script.kindOfWord word = .ident →
      (([] : List Cell)[j]?).getD Value.undefined =
        ((List.replicate i Value.undefined ++ [Value.null])[j]?).getD Value.undefined := by
    intro j hj hkind
    have hne : j ≠ i := by
      rintro rfl
      exact hother hkind (Option.some.inj (hj.symm.trans hi))
    rw [List.getElem?_nil, List.getElem?_append, List.length_replicate]
    by_cases hlt : j < i
    · rw [if_pos hlt, List.getElem?_replicate, if_pos hlt]
      rfl
    · have hout : 1 ≤ j - i := by omega
      rw [if_neg hlt, List.getElem?_eq_none (l := [Value.null]) hout]
  have hcall : ∀ args, (Script.invoke
      ⟨params, returningText params none p, some ([] ++ [.ret (some e)])⟩ args).exec .start =
        let o := (Script.evalExpr (invokeWithin 189) (bindParams params args) e).exec .start
        (o.1.mapError (Failure.inFunction (returningText params none p)), o.2) :=
    fun args => exec_returning (fun _ => List.not_mem_nil) rfl
  have hempty := hf [] .start _ _ _ rfl
  have hnull := hf (List.replicate i .undefined ++ [.null]) .start _ _ _ rfl
  rw [hcall] at hempty hnull
  rw [Script.evalExpr_literal hliteral (fun hkind => Script.get?_bindParams_congr fun j hj =>
    hsame j hj hkind), hnull] at hempty
  simp at hempty

/-- Of the parameters of a specification, exactly the plain names denote their arguments: the function
that returns such a parameter returns, whatever it is called with, the argument at the last position of
the parameter, and statements in front that do not bind the parameter do not change that. Keywords, and
names with a line feed behind them, are accepted as parameters too, and they never do. -/
theorem parameter_denotes (location : Location) {names : List String}
    (hvalid : FunctionSpec.checkParameters params = .valid names) (hp : p ∈ params) :
    ∃ i : Nat, params[i]? = some p ∧ (∀ j, params[j]? = some p → j ≤ i) ∧
      ((∃ f, buildFunction (returning params none p) location = .ok f ∧ Returns [] f i) ↔
        Script.IsPlainName p) ∧
      (Script.IsPlainName p → ∀ statements body,
        Script.parseStatements (returning params statements p).bodyText = .ok body →
        (∀ st ∈ body, st.bound? ≠ some p) → (∀ value, Stmt.ret value ∉ body) →
          ∃ f, buildFunction (returning params statements p) location = .ok f ∧
            Returns body f i) := by
  have hlast : ∃ i : Nat, params[i]? = some p ∧ ∀ j, params[j]? = some p → j ≤ i := by
    obtain ⟨m, hm⟩ := List.getElem?_of_mem hp
    have hle : ∀ j, params[j]? = some p → j ≤ params.length := fun j hj =>
      Nat.le_of_lt (List.getElem?_eq_some_iff.mp hj).1
    exact ⟨Nat.findGreatest (fun j => params[j]? = some p) params.length,
      Nat.findGreatest_spec (P := fun j => params[j]? = some p) (hle m hm) hm,
      fun j hj => Nat.le_findGreatest (hle j hj) hj⟩
  obtain ⟨i, hi, hlast⟩ := hlast
  refine ⟨i, hi, hlast, ⟨?_, fun hplain => ?_⟩, fun hplain statements body => ?_⟩
  · rintro ⟨f, hbuilt, hf⟩
    exact isPlainName_of_returns (isParameterName_of_valid hvalid hp) hi hbuilt hf
  · exact returns_of_isPlainName hplain hi hlast parseStatements_empty
      (List.forall_mem_nil _) fun _ => List.not_mem_nil
  · exact returns_of_isPlainName hplain hi hlast

theorem parameter_denotes_sample :
    FunctionSpec.checkParameters ["a", "b", "a"] = .valid ["a", "b", "a"] ∧
      ∃ f, buildFunction (returning ["a", "b", "a"] none "a") .nowhere = .ok f ∧
        (Script.invoke f [.null, .null, .bool true]).exec .start = (.ok (.bool true), .start) ∧
          (Script.invoke f [.null, .null]).exec .start = (.ok .undefined, .start) := by
  have hvalid : FunctionSpec.checkParameters ["a", "b", "a"] = .valid ["a", "b", "a"] := by rfl
  obtain ⟨i, hi, hlast, hdenotes, -⟩ := parameter_denotes .nowhere hvalid (p := "a") (by decide)
  obtain ⟨f, hbuilt, hf⟩ := hdenotes.mpr (by decide)
  have hlt : i < 3 := (List.getElem?_eq_some_iff.mp hi).1
  obtain rfl : i = 2 := Nat.le_antisymm (by omega) (hlast 2 rfl)
  exact ⟨hvalid, f, hbuilt, hf _ _ _ _ _ rfl, hf _ _ _ _ _ rfl⟩

end Parameters

end Preview
end Vitrine
