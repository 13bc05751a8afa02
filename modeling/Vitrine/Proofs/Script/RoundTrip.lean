import Vitrine.Proofs.Script.Printing
import Vitrine.Script.Program

/-!
# Reading back printed expressions

Precedence and grouping come out as they went in (`parseExpr_printed`), and no parenthesis of the
printed text can be left out (`Expr.not_derives_bare`).
-/
namespace Vitrine
namespace Script

theorem stops_nil {n : Nat} : Stops n [] := fun _ _ hy => nomatch hy

theorem stops_eof {n : Nat} : Stops n [.eof] := stops_of_none rfl

/-- The text of an expression is read as that expression. -/
theorem parseExpr_printed {e : Expr} (h : e.IsPrintable) : parseExpr e.printed = .ok e := by
  obtain ⟨ts, hlex, hmap⟩ := lex_spelled (e.areSpelled_lexemes h) 0
  have htokens : tokens e.printed = .ok ts := by
    rw [tokens, tokenize, Expr.printed, String.toList_ofList, hlex]
  have hsequence : Derives (.sequence e) e.lexemes :=
    (e.derives_lexemes h).loosen e.level_le (Nat.zero_le _)
  obtain ⟨rest, hrest, hparse, hend⟩ := hsequence.parses [.eof] stops_eof ts hmap
  obtain ⟨t, rest', rfl, hkind, -, -⟩ := map_lexeme_cons hend
  have hstop : expectEnd (t :: rest') = .ok () := if_pos hkind
  rw [parseExpr, htokens, ok_bind, hparse, ok_bind]
  dsimp only
  rw [hstop]
  rfl

/-- Grouping from the left, a conditional as a condition and a sequence as an argument. -/
theorem parseExpr_printed_sample :
    let e : Expr := .call (.member (.ident "a") "typeof")
      [.sequence [.conditional (.conditional (.ident "b") .undefined (.literal .null))
          (.binary .sub (.binary .sub (.literal (.int 1)) (.literal (.int 2)))
            (.binary .sub (.literal (.int 3)) (.unary .neg (.ident "c"))))
          (.object [("k \"1\"", .array [.literal (.bool true)])]),
        .index (.unary .not (.ident "d")) (.literal (.string "\n"))]]
    e.IsPrintable ∧ parseExpr e.printed = .ok e := by
  intro e
  have h : e.IsPrintable := by
    simp only [e, Expr.IsPrintable, Expr.ArePrintable, Expr.HavePrintable, Literal.IsPrintable]
    decide
  exact ⟨h, parseExpr_printed h⟩

/-! ## Parentheses -/

variable {α : Type} {e : Expr} {xs ys zs : List Lexeme}

/-- Tokens are read in one way. -/
theorem Reads.unique {f : (ts : List Token) → Except ParseError (Parsed α ts)} {a b : α}
    (h : Reads f xs a ys) (h' : Reads f xs b zs) : ys = zs := by
  have hmap : (xs.map fun x => (⟨x.kind, x.text, 0⟩ : Token)).map Token.lexeme = xs := by
    rw [List.map_map]
    exact List.map_id xs
  obtain ⟨r, hr, heq, hys⟩ := h _ hmap
  obtain ⟨r', hr', heq', hzs⟩ := h' _ hmap
  have hparsed := Except.ok.inj (heq.symm.trans heq')
  rw [← hys, ← hzs, (Parsed.mk.inj hparsed).2]

/-- An operand does not begin with `new`. -/
theorem Derives.ne_new {x : Lexeme} (h : Derives (.primary e) (x :: xs)) :
    x.kind ≠ .keyword .kwNew := by
  intro hx
  cases h with
  | literal h =>
    rw [Lexeme.literal?, hx] at h
    cases h
  | parenthesised h => cases h.symm.trans hx
  | array h => cases h.symm.trans hx
  | object h => cases h.symm.trans hx

/-- What accesses something is no operand. -/
theorem Derives.not_primary {target : Expr} (h : Derives (.suffixed target) xs) (hys : ys ≠ []) :
    ¬ Derives (.primary e) (xs ++ ys) := by
  intro hprimary
  cases h with
  | suffixed hfirst hall =>
    rw [List.append_assoc] at hprimary
    have hwhole := hprimary.parses []
    rw [List.append_nil] at hwhole
    have hnil := (hfirst.parses _).unique hwhole
    exact hys (List.append_eq_nil_iff.mp hnil).2
  | construct hx => exact hprimary.ne_new hx

/-- Without parentheses, no expression stands at a tighter level than its own. -/
theorem Expr.not_derives_bare (h : e.IsPrintable) {n : Nat} (hlevel : e.level < n) (hn : n ≤ 10) :
    ¬ Derives (phraseAt n e) e.lexemes := by
  intro hbare
  have hnext : Derives (phraseAt (e.level + 1) e) e.lexemes := hbare.loosen hn hlevel
  -- the expression would end behind its first part
  cases e with
  | sequence items =>
    cases items with
    | nil => exact absurd h.1 (by decide)
    | cons e es =>
      cases es with
      | nil => exact absurd h.1 (Nat.lt_irrefl 1)
      | cons e' es =>
        have hfirst := derives_placed (n := 1) (by decide) (e.derives_lexemes h.2.1)
        have hmore := Expr.derives_more (e' :: es) h.2.2
        have hwhole := hnext.parses [] stops_nil
        have hstops : Stops 1 (_ ++ []) := hmore.stops_more stops_nil
        have hread := hfirst.parses _ hstops
        rw [List.append_nil] at hwhole hread
        exact nomatch hread.unique hwhole
  | conditional c t e =>
    have hfirst := derives_placed (n := 2) (by decide) (c.derives_lexemes h.1)
    have hwhole := hnext.parses [] stops_nil
    have hread : Reads (parseLevel 0) (Expr.conditional c t e).lexemes c
        (symbolLexeme .question ::
          (placed 1 t t.lexemes ++ symbolLexeme .colon :: placed 1 e e.lexemes)) :=
      hfirst.parses _ (stops_of_joint (m := 1) rfl (by decide))
    rw [List.append_nil] at hwhole
    exact nomatch hread.unique hwhole
  | binary op left right =>
    have hop := op.level_lt
    have hleft := derives_placed (n := op.level + 2) (by omega) (left.derives_lexemes h.1)
    have hright := derives_placed (n := op.level + 3) (by omega) (right.derives_lexemes h.2)
    rw [phraseAt_level (by omega)] at hleft hright
    rw [Expr.level, phraseAt_level (by omega)] at hnext
    obtain ⟨first, us, vs, heq, hvs, hfirst, hchain⟩ := hleft.binary_split hright
    rw [Expr.lexemes, heq] at hnext
    have hwhole := hnext.parses [] stops_nil
    have hstops : Stops _ (vs ++ []) := hchain.stops_chain stops_nil
    have hread := hfirst.parses _ hstops
    rw [List.append_nil] at hwhole hread
    exact hvs (hread.unique hwhole)
  | unary op operand =>
    obtain ⟨y, ys, hy, hopens⟩ := hnext.first_token trivial
    rw [Expr.lexemes] at hy
    rw [← (List.cons.inj hy).1] at hopens
    have hnone := unaryOperator_of_opens hopens
    rw [unaryOperator_lexeme] at hnone
    cases hnone
  | member target name =>
    exact (derives_placed (n := 9) (by decide) (target.derives_lexemes h.1)).not_primary
      (List.cons_ne_nil _ _) hnext
  | index target key =>
    exact (derives_placed (n := 9) (by decide) (target.derives_lexemes h.1)).not_primary
      (List.cons_ne_nil _ _) hnext
  | call callee args =>
    exact (derives_placed (n := 9) (by decide) (callee.derives_lexemes h.1)).not_primary
      (List.cons_ne_nil _ _) hnext
  | _ => exact absurd hlevel (by rw [Expr.level]; omega)

end Script
end Vitrine
