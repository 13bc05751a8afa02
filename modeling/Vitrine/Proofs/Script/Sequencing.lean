import Vitrine.Proofs.Script.Texts

/-!
# Texts of statements one after the other

Two texts of statements with a semicolon on a line of its own between them are read as the statements
of the first and those of the second (`parseStatements_append`), and statements that run to their end
are followed by what stands behind them (`exec_runStmts_append`).
-/
namespace Vitrine
namespace Script

variable {xs ys zs : List Lexeme} {ss ss' : List Stmt}

/-! ## Reading -/

/-- A semicolon behind statements that end a text continues none of them, not even a `return`. -/
theorem DerivesStmts.close {x : Lexeme} (h : DerivesStmts ss xs [.eof])
    (hx : x.kind = .symbol .semicolon) (h' : DerivesStmts ss' ys zs) :
    DerivesStmts (ss ++ ss') (xs ++ x :: ys) zs := by
  generalize heof : [Lexeme.eof] = us at h
  induction h with
  | done => exact .semicolon hx h'
  | semicolon hx' _ ih => exact .semicolon hx' (ih heof)
  | closed hst hadmits hx' _ ih =>
    rw [List.append_assoc, List.cons_append]
    exact .closed hst (hadmits.of_front hst.front.1 rfl) hx' (ih heof)
  | @bare st vs ss xs us hst hadmits hfront hrest ih =>
    rw [List.append_assoc]
    by_cases hxs : xs = []
    · -- the last statement was closed by the end of input, and now the semicolon closes it
      subst hxs
      rw [hrest.eq_nil]
      refine .closed hst (hadmits.congr hst.front.1 ?_ ?_ ?_) hx h'
      · rintro rfl
        rw [frontKind, hx]
        rfl
      · rw [frontKind, hx]
        intro h
        cases h
      · rw [frontKind, hx]
        intro level h
        cases h
    · have heq : frontKind ((xs ++ x :: ys) ++ zs) = frontKind (xs ++ us) := by
        rw [List.append_assoc, frontKind_append hxs, frontKind_append hxs]
      rw [← heq] at hfront
      exact .bare hst (hadmits.of_front hst.front.1 heq) hfront (ih heof)

/-- A text with the tokens of statements is read as those. -/
theorem parseStatements_of_tokens {source : String} {ts : List Token}
    (htokens : tokens source = .ok ts) (hts : ts.map Token.lexeme = xs ++ [.eof])
    (h : DerivesStmts ss xs [.eof]) : parseStatements source = .ok ss := by
  have hskims : Skims (parseStmts .eof) (xs ++ [.eof]) ss [.eof] := h.skims rfl (.inr rfl)
  obtain ⟨r, hr, hstmts, hmap⟩ := hskims ts hts
  have hend : expectEnd r = .ok () := by
    rw [expectEnd, current_kind, hmap]
    rfl
  rw [parseStatements, htokens, ok_bind, hstmts, ok_bind]
  dsimp only
  rw [hend]
  rfl

theorem parseStatements_append {first second : String} (h : parseStatements first = .ok ss)
    (h' : parseStatements second = .ok ss') :
    parseStatements (first ++ "\n;\n" ++ second) = .ok (ss ++ ss') := by
  obtain ⟨xs, ts, htokens, hmap, hstmts⟩ := derives_parseStatements h
  obtain ⟨ys, ts', htokens', hmap', hstmts'⟩ := derives_parseStatements h'
  have hlexes := lexes_of_lex (lex_of_tokens htokens) hmap
  have hlexes' := lexes_of_lex (lex_of_tokens htokens') hmap'
  -- a comment at the end of the first text ends with its line
  have hbehind := (hlexes'.skip (c := '\n') (by decide)).symbol (c := ';') (s := .semicolon)
    (by decide)
  have hall := hlexes.append_break (by decide) (.inl rfl) (hbehind.skip (c := '\n') (by decide))
  have htext : (first ++ "\n;\n" ++ second).toList =
      first.toList ++ '\n' :: ';' :: '\n' :: second.toList := by
    simp
  obtain ⟨us, hus, husmap⟩ := tokens_of_lexes (htext ▸ hall)
  exact parseStatements_of_tokens hus husmap (hstmts.close rfl hstmts')

/-! ## Running -/

variable {invoke : Invoke} {s s' : Scope} {t t' : Trace} {v : Cell}

theorem throwValue_eq {α : Type} (v : Cell) : ∃ shown : Cell, (Eval.throwValue v : Eval α) =
    Eval.lift shown.display >>= fun text => throw (.thrown v text) := ⟨_, rfl⟩

theorem exec_throwValue_ne_ok {α : Type} (v : Cell) (a : α) (t t' : Trace) :
    (Eval.throwValue v : Eval α).exec t ≠ (.ok a, t') := by
  obtain ⟨shown, heq⟩ := throwValue_eq (α := α) v
  rw [heq]
  intro h
  cases hdisplay : shown.display <;> (rw [hdisplay] at h; cases h)

/-- A statement that throws does not come to its end. -/
theorem exec_throw_ne_ok (e : Expr) :
    (runStmts invoke [.throw e]).exec s t ≠ ((.ok v, s'), t') := by
  rw [runStmts, Run.exec_ofEval, Eval.exec_bind]
  rcases hexec : (evalExpr invoke s e).exec t with ⟨o, u⟩
  intro h
  cases o with
  | error failure => cases (Prod.mk.inj (Prod.mk.inj h).1).1
  | ok thrown =>
    obtain ⟨hfirst, htrace⟩ := Prod.mk.inj h
    exact exec_throwValue_ne_ok thrown v u t' (Prod.ext (Prod.mk.inj hfirst).1 htrace)

/-- If statements without a `return` run to their end, the statements behind them go on in the scope
that they leave. -/
theorem exec_runStmts_append (hreturn : ∀ value, Stmt.ret value ∉ ss)
    (h : (runStmts invoke ss).exec s t = ((.ok v, s'), t')) (ss' : List Stmt) :
    (runStmts invoke (ss ++ ss')).exec s t = (runStmts invoke ss').exec s' t' := by
  induction ss generalizing s t with
  | nil =>
    cases h
    rfl
  | cons st ss ih =>
    have hmore : ∀ value, Stmt.ret value ∉ ss := fun value hmem =>
      hreturn value (List.mem_cons_of_mem st hmem)
    rw [List.cons_append]
    cases hst : st.leaves with
    | true =>
      rw [runStmts_of_leaves hst] at h
      cases st with
      | ret value => exact absurd List.mem_cons_self (hreturn value)
      | throw e => exact absurd h (exec_throw_ne_ok e)
      | _ => cases hst
    | false =>
      rw [runStmts_of_stays hst, Run.exec_bind] at h ⊢
      rcases hexec : (st.step invoke).exec s t with ⟨⟨o, u⟩, w⟩
      rw [hexec] at h
      cases o with
      | error failure => cases h
      | ok _ => exact ih hmore h

/-- A name that no statement declares or assigns keeps its value, however the statements end. -/
theorem get?_runStmts {name : String} (hss : ∀ st ∈ ss, st.bound? ≠ some name)
    {o : Except Failure Cell} (h : (runStmts invoke ss).exec s t = ((o, s'), t')) :
    s'.get? name = s.get? name := by
  induction ss generalizing s t with
  | nil =>
    cases h
    rfl
  | cons st ss ih =>
    cases hst : st.leaves with
    | true =>
      rw [runStmts_of_leaves hst] at h
      cases st with
      | ret value => cases value <;> (cases h; rfl)
      | throw e =>
        cases h
        rfl
      | _ => cases hst
    | false =>
      have hname : st.bound? ≠ some name := hss st List.mem_cons_self
      have hstep := (rebinds_step invoke st s t).get?_eq hname
      rw [runStmts_of_stays hst, Run.exec_bind] at h
      rcases hexec : (st.step invoke).exec s t with ⟨⟨r, u⟩, w⟩
      rw [hexec] at h hstep
      cases r with
      | error failure =>
        cases h
        exact hstep
      | ok _ => exact (ih (fun st hst => hss st (List.mem_cons_of_mem _ hst)) h).trans hstep

/-- Statements behind one that leaves the function are never reached. -/
theorem runStmts_append_of_leaves (h : ss.any Stmt.leaves = true) (ss' : List Stmt) :
    runStmts invoke (ss ++ ss') = runStmts invoke ss := by
  induction ss with
  | nil => cases h
  | cons st ss ih =>
    rw [List.cons_append]
    cases hst : st.leaves with
    | true => rw [runStmts_of_leaves hst, runStmts_of_leaves hst ss]
    | false =>
      rw [List.any_cons, hst, Bool.false_or] at h
      rw [runStmts_of_stays hst, runStmts_of_stays hst, ih h]

/-- Statements that fail are not followed by others. -/
theorem exec_runStmts_append_error {e : Failure}
    (h : (runStmts invoke ss).exec s t = ((.error e, s'), t')) (ss' : List Stmt) :
    (runStmts invoke (ss ++ ss')).exec s t = ((.error e, s'), t') := by
  cases hleaves : ss.any Stmt.leaves with
  | true => rwa [runStmts_append_of_leaves hleaves]
  | false =>
    induction ss generalizing s t with
    | nil => cases h
    | cons st ss ih =>
      rw [List.any_cons, Bool.or_eq_false_iff] at hleaves
      rw [runStmts_of_stays hleaves.1, Run.exec_bind] at h
      rw [List.cons_append, runStmts_of_stays hleaves.1, Run.exec_bind]
      rcases hexec : (st.step invoke).exec s t with ⟨⟨o, u⟩, w⟩
      rw [hexec] at h
      cases o with
      | error failure => exact h
      | ok _ => exact ih h hleaves.2

/-! ## Both -/

/-- A text, a semicolon on a line of its own and another text are read as the statements of the one
and of the other, and if the first run to their end without a `return`, the second do in the scope
that the first leave what they do there alone. -/
theorem statements_compose {first second : String} (h : parseStatements first = .ok ss)
    (h' : parseStatements second = .ok ss') :
    parseStatements (first ++ "\n;\n" ++ second) = .ok (ss ++ ss') ∧
    ((∀ value, Stmt.ret value ∉ ss) → ∀ s t v s' t',
      (execute ss).exec s t = ((.ok v, s'), t') →
        (execute (ss ++ ss')).exec s t = (execute ss').exec s' t') :=
  ⟨parseStatements_append h h',
    fun hreturn _ _ _ _ _ hexec => exec_runStmts_append hreturn hexec ss'⟩

/-- A declaration and an assignment to what was declared. -/
def countingStmts : List Stmt := [.declare .letWord "a" (some (.literal (.int 1))),
  .assign "a" (.binary .add (.ident "a") (.literal (.int 1)))]

/-- The first text ends in a comment, and the second begins with one. -/
theorem statements_compose_counting :
    parseStatements ("let a = 1; a = a + 1 // two" ++ "\n;\n" ++ "// then\nreturn a") =
      .ok (countingStmts ++ [.ret (some (.ident "a"))]) ∧
    (execute (countingStmts ++ [.ret (some (.ident "a"))])).exec [] .start =
      (execute [.ret (some (.ident "a"))]).exec [("a", .int 2)] .start := by
  have hfirst : parseStatements "let a = 1; a = a + 1 // two" = .ok countingStmts := by cbv
  have hsecond : parseStatements "// then\nreturn a" = .ok [.ret (some (.ident "a"))] := by cbv
  have hexec : (execute countingStmts).exec [] .start =
      ((.ok .undefined, [("a", .int 2)]), .start) := by rfl
  have hreturn : ∀ value, Stmt.ret value ∉ countingStmts := by simp [countingStmts]
  obtain ⟨hparse, hrun⟩ := statements_compose hfirst hsecond
  exact ⟨hparse, hrun hreturn _ _ _ _ _ hexec⟩

end Script
end Vitrine
