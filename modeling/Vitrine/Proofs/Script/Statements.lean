import Vitrine.Proofs.Script.Soundness
import Vitrine.Script.Program

/-!
# The grammar of statements

Which tokens spell which statement, and what may stand behind it; what the parser reads is what is
spelled (`derives_parseBareStmt`, `reads_bareStmt`). Statements keep their meaning in front of other
statements, except for a `return` at the very end (`DerivesStmts.behind`).
-/
namespace Vitrine
namespace Script

/-- The kind of the token in front; behind the last one, the end of input. -/
def frontKind : List Lexeme → Kind
  | [] => .eof
  | x :: _ => x.kind

/-- The tokens of a statement without the semicolon behind it. -/
inductive DerivesStmt : Stmt → List Lexeme → Prop
  | declare {x name word} (hx : declareWord? x.kind = some word) (hname : name.kind = .ident) :
      DerivesStmt (.declare word name.text none) [x, name]
  | initial {x name equals word e xs} (hx : declareWord? x.kind = some word)
      (hname : name.kind = .ident) (hequals : equals.kind = .symbol .assign)
      (h : Derives (.one e) xs) :
      DerivesStmt (.declare word name.text (some e)) (x :: name :: equals :: xs)
  | leave {x} (hx : x.kind = .keyword .kwReturn) : DerivesStmt (.ret none) [x]
  | ret {x e xs} (hx : x.kind = .keyword .kwReturn) (h : Derives (.sequence e) xs) :
      DerivesStmt (.ret (some e)) (x :: xs)
  | throw {x e xs} (hx : x.kind = .keyword .kwThrow) (h : Derives (.sequence e) xs) :
      DerivesStmt (.throw e) (x :: xs)
  | assign {name equals e xs} (hname : name.kind = .ident) (hequals : equals.kind = .symbol .assign)
      (h : Derives (.one e) xs) : DerivesStmt (.assign name.text e) (name :: equals :: xs)
  | expr {e xs} (h : Derives (.sequence e) xs) : DerivesStmt (.expr e) xs

/-- Whether tokens begin like an assignment. -/
def BeginsAssignment (xs : List Lexeme) : Prop :=
  frontKind xs = .ident ∧ frontKind xs.tail = .symbol .assign

/-- What may stand behind a statement: nothing that continues it. -/
def Stmt.Admits (st : Stmt) (xs ys : List Lexeme) : Prop :=
  match st with
  | .ret none => endsStatement (frontKind ys) = true
  | .declare _ _ none => frontKind ys ≠ .symbol .assign
  | .declare _ _ (some _) | .assign _ _ => Stops 1 ys
  | .ret (some _) | .throw _ => Stops 0 ys
  | .expr _ => Stops 0 ys ∧ ¬ BeginsAssignment (xs ++ ys)

/-- The tokens of statements that stand in front of `ys`. -/
inductive DerivesStmts : List Stmt → List Lexeme → List Lexeme → Prop
  | done {ys} : DerivesStmts [] [] ys
  | semicolon {x ss xs ys} (hx : x.kind = .symbol .semicolon) (h : DerivesStmts ss xs ys) :
      DerivesStmts ss (x :: xs) ys
  | closed {st us x ss xs ys} (hst : DerivesStmt st us) (hadmits : st.Admits us (x :: (xs ++ ys)))
      (hx : x.kind = .symbol .semicolon) (h : DerivesStmts ss xs ys) :
      DerivesStmts (st :: ss) (us ++ x :: xs) ys
  | bare {st us ss xs ys} (hst : DerivesStmt st us) (hadmits : st.Admits us (xs ++ ys))
      (hfront : frontKind (xs ++ ys) ≠ .symbol .semicolon) (h : DerivesStmts ss xs ys) :
      DerivesStmts (st :: ss) (us ++ xs) ys

variable {xs ys zs : List Lexeme} {st : Stmt}

theorem current_kind (ts : List Token) : (current ts).kind = frontKind (ts.map Token.lexeme) := by
  cases ts <;> rfl

theorem frontKind_append (h : xs ≠ []) : frontKind (xs ++ ys) = frontKind xs := by
  cases xs with
  | nil => exact absurd rfl h
  | cons x xs => rfl

theorem stops_iff {n : Nat} :
    Stops n xs ↔ ∀ m, jointLevel (frontKind xs) = some m → m < n := by
  cases xs with
  | nil => exact ⟨(fun _ _ h => nomatch h), fun _ _ _ h => nomatch h⟩
  | cons x xs => exact ⟨fun h => h x xs rfl, stops_cons⟩

/-! ## From the parser -/

theorem derives_parseInitial {ts : List Token} {r : Followed (Option Expr) ts}
    (hend : EndsUnnamed ts) (h : parseInitial ts = .ok r) :
    (r.value = none ∧ r.rest.map Token.lexeme = ts.map Token.lexeme ∧
        frontKind (ts.map Token.lexeme) ≠ .symbol .assign) ∨
      ∃ e equals us, r.value = some e ∧ equals.kind = .symbol .assign ∧
        ts.map Token.lexeme = equals :: (us ++ r.rest.map Token.lexeme) ∧ Derives (.one e) us ∧
          Halts 1 r.rest := by
  rw [parseInitial] at h
  dsimp only at h
  split at h
  · next hassigned =>
    obtain ⟨value, hvalue, h⟩ := bind_eq_ok.mp h
    cases h
    obtain ⟨equals, heq, hequals⟩ := skipSymbol_true hassigned
    obtain ⟨⟨us, hus, hone⟩, hhalt⟩ := derives_parseOne (hend.behind_one heq) hvalue
    exact Or.inr ⟨value.value, equals.lexeme, us, rfl, hequals, by rw [heq, hus], hone, hhalt⟩
  · next hassigned =>
    cases h
    refine Or.inl ⟨rfl, rfl, ?_⟩
    rw [← current_kind]
    cases ts with
    | nil => exact fun h => nomatch h
    | cons t ts => exact (skipSymbol_false hassigned).2 t ts rfl

theorem derives_parseBareStmt {ts : List Token} {r : Parsed Stmt ts} (hend : EndsUnnamed ts)
    (h : parseBareStmt ts = .ok r) :
    ∃ us, ts.map Token.lexeme = us ++ r.rest.map Token.lexeme ∧ DerivesStmt r.value us ∧
      r.value.Admits us (r.rest.map Token.lexeme) := by
  cases ts with
  | nil =>
    rw [parseBareStmt] at h
    cases h
  | cons t rest =>
    rw [parseBareStmt] at h
    split at h
    · next word hword =>
      obtain ⟨name, hname, h⟩ := bind_eq_ok.mp h
      obtain ⟨value, hvalue, h⟩ := bind_eq_ok.mp h
      cases h
      obtain ⟨heq, hkind⟩ := expectToken_eq_ok hname
      rcases derives_parseInitial (hend.tail.behind_one heq) hvalue with ⟨hnone, hrest, hfront⟩ |
        ⟨e, equals, us, hsome, hequals, hus, hone, hhalt⟩
      · refine ⟨[t.lexeme, name.value.lexeme], ?_, ?_, ?_⟩
        · show _ = _ ++ value.rest.map Token.lexeme
          rw [List.map_cons, heq, hrest]
          rfl
        · rw [hnone]
          exact @DerivesStmt.declare t.lexeme name.value.lexeme _ hword hkind
        · show Stmt.Admits (.declare word _ value.value) _ (value.rest.map Token.lexeme)
          rw [hnone, hrest]
          exact hfront
      · refine ⟨t.lexeme :: name.value.lexeme :: equals :: us, ?_, ?_, ?_⟩
        · rw [List.map_cons, heq, hus]
          rfl
        · rw [hsome]
          exact @DerivesStmt.initial t.lexeme name.value.lexeme _ _ _ _ hword hkind hequals hone
        · rw [hsome]
          exact hhalt
    · split at h
      · next hreturn =>
        split at h
        · next hends =>
          cases h
          rw [current_kind] at hends
          exact ⟨[t.lexeme], rfl, .leave hreturn, hends⟩
        · obtain ⟨value, hvalue, h⟩ := bind_eq_ok.mp h
          cases h
          obtain ⟨⟨us, hus, hsequence⟩, hhalt⟩ := derives_parseSequence hend.tail hvalue
          exact ⟨t.lexeme :: us, by rw [List.map_cons, hus, List.cons_append],
            .ret hreturn hsequence, hhalt⟩
      · split at h
        · next hthrow =>
          obtain ⟨value, hvalue, h⟩ := bind_eq_ok.mp h
          cases h
          obtain ⟨⟨us, hus, hsequence⟩, hhalt⟩ := derives_parseSequence hend.tail hvalue
          exact ⟨t.lexeme :: us, by rw [List.map_cons, hus, List.cons_append],
            .throw hthrow hsequence, hhalt⟩
        · split at h
          · next hassign =>
            rw [Bool.and_eq_true, decide_eq_true_eq, decide_eq_true_eq] at hassign
            obtain ⟨value, hvalue, h⟩ := bind_eq_ok.mp h
            cases h
            cases rest with
            | nil => cases hassign.2
            | cons equals rest =>
              obtain ⟨⟨us, hus, hone⟩, hhalt⟩ := derives_parseOne hend.tail.tail hvalue
              have hus : rest.map Token.lexeme = us ++ value.rest.map Token.lexeme := hus
              exact ⟨t.lexeme :: equals.lexeme :: us, by rw [List.map_cons, List.map_cons, hus]; rfl,
                @DerivesStmt.assign t.lexeme equals.lexeme _ _ hassign.1 hassign.2 hone, hhalt⟩
          · next hassign =>
            obtain ⟨value, hvalue, h⟩ := bind_eq_ok.mp h
            cases h
            obtain ⟨⟨us, hus, hsequence⟩, hhalt⟩ := derives_parseSequence hend hvalue
            refine ⟨us, hus, .expr hsequence, hhalt, ?_⟩
            rw [← hus]
            rintro ⟨hident, hequals⟩
            rw [List.map_cons, List.tail_cons, ← current_kind] at hequals
            exact hassign (by rw [Bool.and_eq_true, decide_eq_true_eq, decide_eq_true_eq]
                              exact ⟨hident, hequals⟩)

/-! ## To the parser -/

/-- What begins an expression neither begins another statement nor ends one. -/
theorem begins_expression {kind : Kind} (h : opens kind = true ∨ unaryOperator kind ≠ none) :
    declareWord? kind = none ∧ kind ≠ .keyword .kwReturn ∧ kind ≠ .keyword .kwThrow ∧
      endsStatement kind = false := by
  rcases h with h | h
  · rw [opens.eq_def] at h
    split at h <;> first | exact ⟨rfl, by decide, by decide, by decide⟩ | cases h
  · rw [unaryOperator.eq_def] at h
    split at h <;> first | exact ⟨rfl, by decide, by decide, by decide⟩ | exact absurd rfl h

theorem Derives.front {e : Expr} (h : Derives (.sequence e) xs) :
    opens (frontKind (xs ++ ys)) = true ∨ unaryOperator (frontKind (xs ++ ys)) ≠ none := by
  obtain ⟨y, us, rfl, hy⟩ := h.first_token trivial
  exact hy

theorem reads_initial {equals : Lexeme} {e : Expr} (hequals : equals.kind = .symbol .assign)
    (h : Reads parseOne xs e ys) : Skims parseInitial (equals :: xs) (some e) ys := by
  intro ts hts
  obtain ⟨r, hs, hskip, hmap⟩ := skipSymbol_of_eq hts hequals
  obtain ⟨r', hr', heq', hmap'⟩ := h r hmap
  refine ⟨r', by omega, ?_, hmap'⟩
  rw [parseInitial, hskip]
  dsimp only
  rw [if_pos rfl, heq']
  rfl

theorem reads_no_initial (h : frontKind xs ≠ .symbol .assign) : Skims parseInitial xs none xs := by
  intro ts hts
  obtain ⟨hs, hskip⟩ := skipSymbol_of_ne (s := .assign) hts fun y ys hy => by
    rw [hy] at h
    exact h
  refine ⟨ts, Nat.le_refl _, ?_, hts⟩
  rw [parseInitial, hskip]
  dsimp only
  rw [if_neg Bool.false_ne_true]
  rfl

theorem reads_declare {x name : Lexeme} {word : DeclareWord} {value : Option Expr}
    (hx : declareWord? x.kind = some word) (hname : name.kind = .ident)
    (h : Skims parseInitial xs value ys) :
    Reads parseBareStmt (x :: name :: xs) (.declare word name.text value) ys := by
  intro ts hts
  obtain ⟨t, rest, rfl, hkind, -, hrest⟩ := map_lexeme_cons hts
  obtain ⟨t', rest', rfl, hkind', htext, hrest'⟩ := map_lexeme_cons hrest
  obtain ⟨r, hr, heq, hmap⟩ := h rest' hrest'
  refine ⟨r, by rw [List.length_cons, List.length_cons]; omega, ?_, hmap⟩
  rw [parseBareStmt, hkind, hx]
  dsimp only
  rw [expectToken, if_pos (hkind'.trans hname), ok_bind]
  dsimp only
  rw [heq, ← htext]
  rfl

theorem reads_expression {e : Expr} (h : Reads parseSequence xs e ys)
    (hx : ∀ z zs, xs = z :: zs → declareWord? z.kind = none ∧ z.kind ≠ .keyword .kwReturn ∧
      z.kind ≠ .keyword .kwThrow) (hassign : ¬ BeginsAssignment xs) :
    Reads parseBareStmt xs (.expr e) ys := by
  intro ts hts
  obtain ⟨r, hr, heq, hmap⟩ := h ts hts
  cases ts with
  | nil => exact absurd hr (Nat.not_lt_zero _)
  | cons t rest =>
    obtain ⟨hdeclare, hreturn, hthrow⟩ := hx _ _ hts.symm
    have hguard : ¬ (decide (t.kind = .ident) && decide ((current rest).kind = .symbol .assign)) =
        true := by
      rw [Bool.and_eq_true, decide_eq_true_eq, decide_eq_true_eq, current_kind]
      rw [← hts] at hassign
      exact hassign
    refine ⟨r, hr, ?_, hmap⟩
    rw [parseBareStmt, show declareWord? t.kind = none from hdeclare]
    dsimp only
    rw [if_neg (show t.kind ≠ _ from hreturn), if_neg (show t.kind ≠ _ from hthrow), if_neg hguard,
      heq]
    rfl

theorem reads_leave {x : Lexeme} (hx : x.kind = .keyword .kwReturn)
    (h : endsStatement (frontKind xs) = true) : Reads parseBareStmt (x :: xs) (.ret none) xs := by
  intro ts hts
  obtain ⟨t, rest, rfl, hkind, -, hrest⟩ := map_lexeme_cons hts
  have hends : endsStatement (current rest).kind = true := by rw [current_kind, hrest, h]
  refine ⟨rest, Nat.lt_succ_self _, ?_, hrest⟩
  rw [parseBareStmt, hkind, hx]
  dsimp only [declareWord?]
  rw [if_pos rfl, if_pos hends]

theorem reads_ret {x : Lexeme} {e : Expr} (hx : x.kind = .keyword .kwReturn)
    (h : Reads parseSequence xs e ys) (hxs : endsStatement (frontKind xs) = false) :
    Reads parseBareStmt (x :: xs) (.ret (some e)) ys := by
  intro ts hts
  obtain ⟨t, rest, rfl, hkind, -, hrest⟩ := map_lexeme_cons hts
  obtain ⟨r, hr, heq, hmap⟩ := h rest hrest
  have hends : ¬ endsStatement (current rest).kind = true := by
    rw [current_kind, hrest, hxs]
    exact Bool.false_ne_true
  refine ⟨r, by rw [List.length_cons]; omega, ?_, hmap⟩
  rw [parseBareStmt, hkind, hx]
  dsimp only [declareWord?]
  rw [if_pos rfl, if_neg hends, heq]
  rfl

theorem reads_throw {x : Lexeme} {e : Expr} (hx : x.kind = .keyword .kwThrow)
    (h : Reads parseSequence xs e ys) : Reads parseBareStmt (x :: xs) (.throw e) ys := by
  intro ts hts
  obtain ⟨t, rest, rfl, hkind, -, hrest⟩ := map_lexeme_cons hts
  obtain ⟨r, hr, heq, hmap⟩ := h rest hrest
  refine ⟨r, by rw [List.length_cons]; omega, ?_, hmap⟩
  rw [parseBareStmt, hkind, hx]
  dsimp only [declareWord?]
  rw [if_neg (by decide), if_pos rfl, heq]
  rfl

theorem reads_assign {name equals : Lexeme} {e : Expr} (hname : name.kind = .ident)
    (hequals : equals.kind = .symbol .assign) (h : Reads parseOne xs e ys) :
    Reads parseBareStmt (name :: equals :: xs) (.assign name.text e) ys := by
  intro ts hts
  obtain ⟨t, rest, rfl, hkind, htext, hrest⟩ := map_lexeme_cons hts
  obtain ⟨t', rest', rfl, hkind', -, hrest'⟩ := map_lexeme_cons hrest
  obtain ⟨r, hr, heq, hmap⟩ := h rest' hrest'
  have hguard : (decide (Kind.ident = .ident) && decide ((current (t' :: rest')).kind =
      .symbol .assign)) = true := by
    rw [current, hkind', hequals]
    rfl
  refine ⟨r, by rw [List.length_cons, List.length_cons]; omega, ?_, hmap⟩
  rw [parseBareStmt, hkind, hname]
  dsimp only [declareWord?]
  rw [if_neg (by decide), if_neg (by decide), if_pos hguard]
  dsimp only [List.tail_cons]
  rw [heq, ← htext]
  rfl

/-- A spelled statement is read in front of what may stand behind it. -/
theorem reads_bareStmt (h : DerivesStmt st xs) (hys : st.Admits xs ys) :
    Reads parseBareStmt (xs ++ ys) st ys := by
  cases h with
  | declare hx hname => exact reads_declare hx hname (reads_no_initial hys)
  | initial hx hname hequals h =>
    exact reads_declare hx hname (reads_initial hequals (h.parses ys hys))
  | leave hx => exact reads_leave hx hys
  | ret hx h => exact reads_ret hx (h.parses ys hys) (begins_expression h.front).2.2.2
  | throw hx h => exact reads_throw hx (h.parses ys hys)
  | assign hname hequals h => exact reads_assign hname hequals (h.parses ys hys)
  | expr h =>
    refine reads_expression (h.parses ys hys.1) (fun z zs hz => ?_) hys.2
    have hfront := begins_expression (h.front : opens (frontKind (xs ++ ys)) = true ∨ _)
    rw [hz] at hfront
    exact ⟨hfront.1, hfront.2.1, hfront.2.2.1⟩

/-! ## Several statements -/

theorem DerivesStmts.append {ss ss' : List Stmt} (h : DerivesStmts ss xs (ys ++ zs))
    (h' : DerivesStmts ss' ys zs) : DerivesStmts (ss ++ ss') (xs ++ ys) zs := by
  generalize hus : ys ++ zs = us at h
  induction h with
  | done => exact h'
  | semicolon hx _ ih => exact .semicolon hx (ih hus)
  | closed hst hadmits hx _ ih =>
    rw [List.append_assoc, List.cons_append]
    rw [← hus, ← List.append_assoc] at hadmits
    exact .closed hst hadmits hx (ih hus)
  | bare hst hadmits hfront _ ih =>
    rw [List.append_assoc]
    rw [← hus, ← List.append_assoc] at hadmits hfront
    exact .bare hst hadmits hfront (ih hus)

/-- A statement begins with a token of its own. -/
theorem DerivesStmt.front (h : DerivesStmt st xs) :
    xs ≠ [] ∧ frontKind xs ≠ .eof ∧ frontKind xs ≠ .symbol .semicolon ∧
      frontKind xs ≠ .symbol .rbrace := by
  have hword : ∀ {kind word}, declareWord? kind = some word → kind ≠ .eof ∧
      kind ≠ .symbol .semicolon ∧ kind ≠ .symbol .rbrace := by
    intro kind word hkind
    refine ⟨?_, ?_, ?_⟩ <;> (rintro rfl; cases hkind)
  cases h with
  | declare hx => exact ⟨List.cons_ne_nil _ _, hword hx⟩
  | initial hx => exact ⟨List.cons_ne_nil _ _, hword hx⟩
  | leave hx => exact ⟨List.cons_ne_nil _ _, by rw [frontKind, hx]; decide⟩
  | ret hx => exact ⟨List.cons_ne_nil _ _, by rw [frontKind, hx]; decide⟩
  | throw hx => exact ⟨List.cons_ne_nil _ _, by rw [frontKind, hx]; decide⟩
  | assign hx => exact ⟨List.cons_ne_nil _ _, by rw [frontKind, hx]; decide⟩
  | expr h =>
    have hends : endsStatement (frontKind (xs ++ [])) = false :=
      (begins_expression h.front).2.2.2
    rw [List.append_nil, endsStatement, Bool.or_eq_false_iff, Bool.or_eq_false_iff,
      decide_eq_false_iff_not, decide_eq_false_iff_not, decide_eq_false_iff_not] at hends
    refine ⟨?_, hends.2, hends.1.1, hends.1.2⟩
    rintro rfl
    exact hends.2 rfl

/-- What stands behind a statement may be replaced by what continues it no more. -/
theorem Stmt.Admits.congr (h : st.Admits xs ys) (hxs : xs ≠ [])
    (hends : st = .ret none → endsStatement (frontKind zs) = true)
    (hassign : frontKind zs = .symbol .assign → frontKind ys = .symbol .assign)
    (hjoint : ∀ m, jointLevel (frontKind zs) = some m → jointLevel (frontKind ys) = some m) :
    st.Admits xs zs := by
  have hstops : ∀ n, Stops n ys → Stops n zs := fun n hn =>
    stops_iff.mpr fun m hm => stops_iff.mp hn m (hjoint m hm)
  cases st with
  | declare word name value =>
    cases value with
    | none => exact fun hz => h (hassign hz)
    | some e => exact hstops 1 h
  | assign name e => exact hstops 1 h
  | expr e =>
    refine ⟨hstops 0 h.1, fun hbegins => h.2 ?_⟩
    cases xs with
    | nil => exact absurd rfl hxs
    | cons x xs =>
      cases xs with
      | nil => exact ⟨hbegins.1, hassign hbegins.2⟩
      | cons x' xs => exact hbegins
  | ret value =>
    cases value with
    | none => exact hends rfl
    | some e => exact hstops 0 h
  | throw e => exact hstops 0 h

/-- Only the first token behind a statement tells whether it continues the statement. -/
theorem Stmt.Admits.of_front (h : st.Admits xs ys) (hxs : xs ≠ [])
    (heq : frontKind zs = frontKind ys) : st.Admits xs zs := by
  refine h.congr hxs ?_ (fun hz => heq ▸ hz) fun m hm => heq ▸ hm
  rintro rfl
  rw [heq]
  exact h

/-! ### From the parser -/

theorem derives_parseStmt {ts : List Token} {r : Parsed Stmt ts} (hend : EndsUnnamed ts)
    (h : parseStmt ts = .ok r) :
    ∃ us, ts.map Token.lexeme = us ++ r.rest.map Token.lexeme ∧
      ((∃ vs x, us = vs ++ [x] ∧ DerivesStmt r.value vs ∧
          r.value.Admits vs (x :: r.rest.map Token.lexeme) ∧ x.kind = .symbol .semicolon) ∨
        DerivesStmt r.value us ∧ r.value.Admits us (r.rest.map Token.lexeme) ∧
          frontKind (r.rest.map Token.lexeme) ≠ .symbol .semicolon) := by
  rw [parseStmt] at h
  obtain ⟨bare, hbare, h⟩ := bind_eq_ok.mp h
  obtain ⟨us, hus, hst, hadmits⟩ := derives_parseBareStmt hend hbare
  dsimp only at h
  rw [← Except.ok.inj h]
  dsimp only
  by_cases hclosed : (skipSymbol .semicolon bare.rest).value = true
  · obtain ⟨semicolon, heq, hsemicolon⟩ := skipSymbol_true hclosed
    rw [heq] at hadmits
    refine ⟨us ++ [semicolon.lexeme], ?_, Or.inl ⟨us, _, rfl, hst, hadmits, hsemicolon⟩⟩
    rw [hus, heq, List.append_assoc]
    rfl
  · obtain ⟨heq, hne⟩ := skipSymbol_false hclosed
    rw [heq]
    refine ⟨us, hus, Or.inr ⟨hst, hadmits, ?_⟩⟩
    rw [← current_kind]
    cases hempty : bare.rest with
    | nil => exact fun h => nomatch h
    | cons t rest => exact hne t rest hempty

theorem derives_parseStmts {stop : Kind} {ts : List Token} {r : Followed (List Stmt) ts}
    (hend : EndsUnnamed ts) (h : parseStmts stop ts = .ok r) :
    ∃ xs, ts.map Token.lexeme = xs ++ r.rest.map Token.lexeme ∧
      DerivesStmts r.value xs (r.rest.map Token.lexeme) ∧
        (frontKind (r.rest.map Token.lexeme) = stop ∨ frontKind (r.rest.map Token.lexeme) = .eof) := by
  match ts with
  | [] =>
    rw [parseStmts] at h
    cases h
    exact ⟨[], rfl, .done, Or.inr rfl⟩
  | t :: rest =>
    rw [parseStmts] at h
    split at h
    · next hstop =>
      cases h
      rw [Bool.or_eq_true, decide_eq_true_eq, decide_eq_true_eq] at hstop
      exact ⟨[], rfl, .done, hstop⟩
    · split at h
      · next hsemicolon =>
        obtain ⟨more, hmore, h⟩ := bind_eq_ok.mp h
        cases h
        obtain ⟨xs, hxs, hall, hstop⟩ := derives_parseStmts hend.tail hmore
        exact ⟨t.lexeme :: xs, by rw [List.map_cons, hxs, List.cons_append], .semicolon hsemicolon hall,
          hstop⟩
      · obtain ⟨stmt, hstmt, h⟩ := bind_eq_ok.mp h
        obtain ⟨more, hmore, h⟩ := bind_eq_ok.mp h
        cases h
        have hshort : stmt.rest.length < rest.length + 1 := stmt.shorter
        obtain ⟨us, hus, hcase⟩ := derives_parseStmt hend hstmt
        obtain ⟨xs, hxs, hall, hstop⟩ := derives_parseStmts (hend.behind hus) hmore
        rw [hxs] at hus hcase
        rcases hcase with ⟨vs, x, rfl, hst, hadmits, hx⟩ | ⟨hst, hadmits, hfront⟩
        · refine ⟨vs ++ x :: xs, ?_, .closed hst hadmits hx hall, hstop⟩
          rw [hus, List.append_assoc, List.append_assoc]
          rfl
        · exact ⟨us ++ xs, by rw [hus, List.append_assoc], .bare hst hadmits hfront hall, hstop⟩
termination_by ts.length

theorem DerivesStmt.eof_not_mem (h : DerivesStmt st xs) : Lexeme.eof ∉ xs := by
  have hdeclare : declareWord? Lexeme.eof.kind = none := rfl
  have hkind : Lexeme.eof.kind = .eof := rfl
  cases h with
  | expr h => exact h.eof_not_mem
  | declare | leave => grind
  | initial _ _ _ h | ret _ h | throw _ h | assign _ _ h =>
    have hrest := h.eof_not_mem
    grind

theorem DerivesStmts.eof_not_mem {ss : List Stmt} (h : DerivesStmts ss xs ys) :
    Lexeme.eof ∉ xs := by
  have hkind : Lexeme.eof.kind = .eof := rfl
  induction h with
  | done => exact List.not_mem_nil
  | semicolon => grind
  | closed hst | bare hst =>
    have hfirst := hst.eof_not_mem
    grind

/-! ### To the parser -/

theorem reads_closed {x : Lexeme} (h : Reads parseBareStmt xs st (x :: ys))
    (hx : x.kind = .symbol .semicolon) : Reads parseStmt xs st ys := by
  intro ts hts
  obtain ⟨r, hr, heq, hmap⟩ := h ts hts
  obtain ⟨r', hs, hskip, hmap'⟩ := skipSymbol_of_eq hmap hx
  refine ⟨r', by omega, ?_, hmap'⟩
  rw [parseStmt, heq, ok_bind]
  dsimp only
  rw [hskip]
  rfl

theorem reads_bare (h : Reads parseBareStmt xs st ys) (hys : frontKind ys ≠ .symbol .semicolon) :
    Reads parseStmt xs st ys := by
  intro ts hts
  obtain ⟨r, hr, heq, hmap⟩ := h ts hts
  obtain ⟨hs, hskip⟩ := skipSymbol_of_ne (s := .semicolon) hmap fun y ys hy => by
    rw [hy] at hys
    exact hys
  refine ⟨r, hr, ?_, hmap⟩
  rw [parseStmt, heq, ok_bind]
  dsimp only
  rw [hskip]
  rfl

variable {stop : Kind} {ss : List Stmt}

theorem skims_stmts_end (h : frontKind xs = stop) : Skims (parseStmts stop) xs [] xs := by
  intro ts hts
  cases ts with
  | nil => exact ⟨[], Nat.le_refl _, by rw [parseStmts], hts⟩
  | cons t rest =>
    rw [← hts] at h
    have hstop : (decide (t.kind = stop) || decide (t.kind = .eof)) = true := by
      rw [Bool.or_eq_true, decide_eq_true_eq]
      exact Or.inl h
    exact ⟨t :: rest, Nat.le_refl _, by rw [parseStmts, if_pos hstop], hts⟩

theorem skims_semicolon {x : Lexeme} (hx : x.kind = .symbol .semicolon)
    (hstop : stop ≠ .symbol .semicolon) (h : Skims (parseStmts stop) xs ss ys) :
    Skims (parseStmts stop) (x :: xs) ss ys := by
  intro ts hts
  obtain ⟨t, rest, rfl, hkind, -, hrest⟩ := map_lexeme_cons hts
  obtain ⟨r, hr, heq, hmap⟩ := h rest hrest
  have hgo : ¬ (decide (t.kind = stop) || decide (t.kind = .eof)) = true := by
    rw [hkind, hx, Bool.or_eq_true, decide_eq_true_eq, decide_eq_true_eq]
    exact fun h => h.elim (fun h => hstop h.symm) fun h => nomatch h
  refine ⟨r, by rw [List.length_cons]; omega, ?_, hmap⟩
  rw [parseStmts, if_neg hgo, if_pos (hkind.trans hx), heq]
  rfl

theorem skims_stmt (h : Reads parseStmt xs st ys) (hmore : Skims (parseStmts stop) ys ss zs)
    (hfront : frontKind xs ≠ stop ∧ frontKind xs ≠ .eof ∧ frontKind xs ≠ .symbol .semicolon) :
    Skims (parseStmts stop) xs (st :: ss) zs := by
  intro ts hts
  obtain ⟨r, hr, heq, hmap⟩ := h ts hts
  obtain ⟨r', hr', heq', hmap'⟩ := hmore r hmap
  rw [← hts] at hfront
  cases ts with
  | nil => exact absurd rfl hfront.2.1
  | cons t rest =>
    obtain ⟨hstop, heof, hsemicolon⟩ := hfront
    have hgo : ¬ (decide (t.kind = stop) || decide (t.kind = .eof)) = true := by
      rw [Bool.or_eq_true, decide_eq_true_eq, decide_eq_true_eq]
      exact fun h => h.elim hstop heof
    refine ⟨r', by omega, ?_, hmap'⟩
    rw [parseStmts, if_neg hgo, if_neg (show t.kind ≠ _ from hsemicolon), heq, ok_bind]
    dsimp only
    rw [heq']
    rfl

/-- Spelled statements are read up to the brace or the end of input behind them. -/
theorem DerivesStmts.skims (h : DerivesStmts ss xs ys) (hys : frontKind ys = stop)
    (hstop : stop = .symbol .rbrace ∨ stop = .eof) :
    Skims (parseStmts stop) (xs ++ ys) ss ys := by
  have hsemicolon : stop ≠ .symbol .semicolon := by rcases hstop with rfl | rfl <;> decide
  have hfirst : ∀ {st us vs}, DerivesStmt st us → frontKind (us ++ vs) ≠ stop ∧
      frontKind (us ++ vs) ≠ .eof ∧ frontKind (us ++ vs) ≠ .symbol .semicolon := by
    intro st us vs hst
    obtain ⟨hne, heof, hsemicolon, hbrace⟩ := hst.front
    rw [frontKind_append hne]
    refine ⟨?_, heof, hsemicolon⟩
    rcases hstop with rfl | rfl
    · exact hbrace
    · exact heof
  induction h with
  | done => exact skims_stmts_end hys
  | semicolon hx _ ih => exact skims_semicolon hx hsemicolon (ih hys)
  | closed hst hadmits hx _ ih =>
    rw [List.append_assoc, List.cons_append]
    exact skims_stmt (reads_closed (reads_bareStmt hst hadmits) hx) (ih hys) (hfirst hst)
  | bare hst hadmits hfront _ ih =>
    rw [List.append_assoc]
    exact skims_stmt (reads_bare (reads_bareStmt hst hadmits) hfront) (ih hys) (hfirst hst)

/-! ### Statements in front of others -/

/-- Whether statements end with the word `return` and nothing behind it. -/
def EndsOpen (ss : List Stmt) (xs : List Lexeme) : Prop :=
  ss.getLast? = some (.ret none) ∧ ∃ x, xs.getLast? = some x ∧ x.kind = .keyword .kwReturn

theorem DerivesStmts.eq_nil (h : DerivesStmts ss [] ys) : ss = [] := by
  generalize hxs : ([] : List Lexeme) = xs at h
  cases h with
  | done => rfl
  | semicolon => cases hxs
  | closed => exact absurd hxs.symm (List.append_ne_nil_of_right_ne_nil _ (List.cons_ne_nil _ _))
  | bare hst => exact absurd (List.append_eq_nil_iff.mp hxs.symm).1 hst.front.1

theorem EndsOpen.of_append {us : List Lexeme} (h : EndsOpen ss xs) :
    EndsOpen (st :: ss) (us ++ xs) := by
  obtain ⟨hss, x, hxs, hx⟩ := h
  refine ⟨?_, x, ?_, hx⟩
  · rw [List.getLast?_cons, hss]
    rfl
  · rw [List.getLast?_append, hxs]
    rfl

/-- Statements that end a text may stand in front of a word that begins a statement, except if they
end with `return`. -/
theorem DerivesStmts.behind (h : DerivesStmts ss xs ys) (hopen : ¬ EndsOpen ss xs)
    (hzs : frontKind zs = .keyword .kwReturn ∨ frontKind zs = .keyword .kwThrow) :
    DerivesStmts ss xs zs := by
  have hassign : frontKind zs ≠ .symbol .assign := by
    rcases hzs with h | h <;> (rw [h]; decide)
  have hsemicolon : frontKind zs ≠ .symbol .semicolon := by
    rcases hzs with h | h <;> (rw [h]; decide)
  have hjoint : jointLevel (frontKind zs) = none := by
    rcases hzs with h | h <;> (rw [h]; rfl)
  induction h with
  | done => exact .done
  | @semicolon x ss xs ys hx h ih =>
    refine .semicolon hx (ih fun hends => hopen ⟨hends.1, ?_⟩)
    obtain ⟨-, x', hxs, hx'⟩ := hends
    refine ⟨x', ?_, hx'⟩
    rw [List.getLast?_cons, hxs]
    rfl
  | @closed st us x ss xs ys hst hadmits hx _ ih =>
    refine .closed hst (hadmits.of_front hst.front.1 rfl) hx (ih fun hends => hopen ?_)
    have happend : EndsOpen (st :: ss) (us ++ [x] ++ xs) := hends.of_append
    rw [List.append_assoc] at happend
    exact happend
  | @bare st us ss xs ys hst hadmits hfront hrest ih =>
    have hmore := ih fun hends => hopen hends.of_append
    by_cases hxs : xs = []
    · subst hxs
      refine .bare hst (hadmits.congr hst.front.1 ?_ (fun h => absurd h hassign) ?_) hsemicolon hmore
      · rintro rfl
        rw [hrest.eq_nil] at hopen
        cases hst with
        | leave hx => exact absurd ⟨rfl, _, rfl, hx⟩ hopen
      · intro m hm
        rw [List.nil_append, hjoint] at hm
        cases hm
    · have heq : frontKind (xs ++ zs) = frontKind (xs ++ ys) := by
        rw [frontKind_append hxs, frontKind_append hxs]
      rw [← heq] at hfront
      exact .bare hst (hadmits.of_front hst.front.1 heq) hfront hmore

end Script
end Vitrine
