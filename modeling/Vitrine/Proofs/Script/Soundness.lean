import Vitrine.Proofs.Script.Printing

/-!
# What the parser has read

The tokens that the parser has read are derived as its result, and no token behind them continues
them (`derives_parseSequence`).
-/
namespace Vitrine
namespace Script

/-- The tokens in front of `rest` in `ts`, and the kind of thing that they are. -/
def Spells (p : Phrase) (ts rest : List Token) : Prop :=
  ∃ xs, ts.map Token.lexeme = xs ++ rest.map Token.lexeme ∧ Derives p xs

/-- No token in front continues an expression of level `n`. -/
def Halts (n : Nat) (ts : List Token) : Prop := Stops n (ts.map Token.lexeme)

variable {ts rest : List Token}

theorem spells_nil {p : Phrase} (h : Derives p []) : Spells p ts ts := ⟨[], rfl, h⟩

/-- An end of input among the tokens names no property. -/
def EndsUnnamed (ts : List Token) : Prop :=
  ∀ x ∈ ts.map Token.lexeme, x.kind = .eof → x.names = false

theorem EndsUnnamed.behind {xs : List Lexeme} (h : EndsUnnamed ts)
    (heq : ts.map Token.lexeme = xs ++ rest.map Token.lexeme) : EndsUnnamed rest := by
  intro x hx
  refine h x ?_
  rw [heq]
  exact List.mem_append_right xs hx

theorem EndsUnnamed.behind_one {x : Lexeme} (h : EndsUnnamed ts)
    (heq : ts.map Token.lexeme = x :: rest.map Token.lexeme) : EndsUnnamed rest :=
  @EndsUnnamed.behind ts rest [x] h heq

theorem EndsUnnamed.tail {t : Token} (h : EndsUnnamed (t :: ts)) : EndsUnnamed ts :=
  h.behind_one rfl

theorem expectToken_cons {kind : Kind} {r : Parsed Token ts} (h : expectToken kind ts = .ok r) :
    ts = r.value :: r.rest ∧ r.value.kind = kind := by
  cases ts with
  | nil => cases h
  | cons t ts =>
    rw [expectToken] at h
    split at h
    · next hkind =>
      cases h
      exact ⟨rfl, hkind⟩
    · cases h

theorem expectToken_eq_ok {kind : Kind} {r : Parsed Token ts} (h : expectToken kind ts = .ok r) :
    ts.map Token.lexeme = r.value.lexeme :: r.rest.map Token.lexeme ∧ r.value.kind = kind := by
  obtain ⟨hts, hkind⟩ := expectToken_cons h
  exact ⟨congrArg (List.map Token.lexeme) hts, hkind⟩

theorem skipSymbol_true {s : Symbol} (h : (skipSymbol s ts).value = true) :
    ∃ t : Token, ts.map Token.lexeme = t.lexeme :: (skipSymbol s ts).rest.map Token.lexeme ∧
      t.kind = .symbol s := by
  cases ts with
  | nil => cases h
  | cons t ts =>
    rw [skipSymbol] at h ⊢
    split at h
    · next hkind =>
      rw [if_pos hkind]
      exact ⟨t, rfl, hkind⟩
    · cases h

theorem skipSymbol_false {s : Symbol} (h : ¬ (skipSymbol s ts).value = true) :
    (skipSymbol s ts).rest = ts ∧ ∀ t rest, ts = t :: rest → t.kind ≠ .symbol s := by
  cases ts with
  | nil => exact ⟨rfl, fun _ _ h => nomatch h⟩
  | cons t ts =>
    rw [skipSymbol] at h ⊢
    split at h
    · exact absurd rfl h
    · next hkind =>
      rw [if_neg hkind]
      refine ⟨rfl, fun t' rest h => ?_⟩
      rw [← (List.cons.inj h).1]
      exact hkind

/-! ## Stopping -/

theorem Stops.tighten {n : Nat} {xs : List Lexeme} (h : Stops (n + 1) xs)
    (hne : ∀ y ys, xs = y :: ys → jointLevel y.kind ≠ some n) : Stops n xs := by
  intro y ys hy m hm
  have hlt := h y ys hy m hm
  have hmn : m ≠ n := by
    rintro rfl
    exact hne y ys hy hm
  omega

theorem halts_nil {n : Nat} : Halts n [] := fun _ _ hy => nomatch hy

theorem Halts.tighten {n : Nat} (h : Halts (n + 1) ts)
    (hne : ∀ t rest, ts = t :: rest → jointLevel t.kind ≠ some n) : Halts n ts := by
  refine Stops.tighten h fun y ys hy => ?_
  obtain ⟨t, rest, rfl, hkind, -, -⟩ := map_lexeme_cons hy
  rw [← hkind]
  exact hne t rest rfl

theorem eq_comma_of_jointLevel {kind : Kind} (h : jointLevel kind = some 0) :
    kind = .symbol .comma := by
  rw [jointLevel.eq_def] at h
  split at h <;> first | rfl | cases h

theorem eq_question_of_jointLevel {kind : Kind} (h : jointLevel kind = some 1) :
    kind = .symbol .question := by
  rw [jointLevel.eq_def] at h
  split at h <;> first | rfl | cases h

theorem operatorAt_of_jointLevel {n : Nat} {kind : Kind} (hn : n < 6)
    (h : jointLevel kind = some (n + 2)) : operatorAt n kind ≠ none := by
  rw [jointLevel.eq_def] at h
  split at h <;> first | (cases h; exact Option.some_ne_none _) | (cases h; omega) | cases h

theorem accesses_of_jointLevel {kind : Kind} {m : Nat} (h : jointLevel kind = some m) (hm : 8 ≤ m) :
    accesses kind = true := by
  rw [jointLevel.eq_def] at h
  split at h <;> first | rfl | (cases h; omega) | cases h

theorem Spells.suffixed {e : Expr} (h : Spells (.primary e) ts rest) :
    Spells (.suffixed e) ts rest := by
  obtain ⟨xs, hxs, hprimary⟩ := h
  have hsuffixed := Derives.suffixed hprimary .accesses_end
  rw [List.append_nil] at hsuffixed
  exact ⟨xs, hxs, hsuffixed⟩

/-! ## The parser -/

mutual

theorem derives_parseSequence {ts : List Token} {r : Parsed Expr ts} (hend : EndsUnnamed ts)
    (h : parseSequence ts = .ok r) : Spells (.sequence r.value) ts r.rest ∧ Halts 0 r.rest := by
  rw [parseSequence] at h
  obtain ⟨first, hfirst, h⟩ := bind_eq_ok.mp h
  obtain ⟨others, hothers, h⟩ := bind_eq_ok.mp h
  cases h
  have hshort := first.shorter
  obtain ⟨⟨xs, hxs, hone⟩, hhalt⟩ := derives_parseOne hend hfirst
  obtain ⟨⟨ys, hys, hmore⟩, hhalt'⟩ := derives_parseMore (hend.behind hxs) hhalt hothers
  exact ⟨⟨xs ++ ys, by rw [hxs, hys, List.append_assoc], .sequence hone hmore⟩, hhalt'⟩
termination_by (ts.length, 12)

theorem derives_parseMore {ts : List Token} {r : Followed (List Expr) ts} (hend : EndsUnnamed ts)
    (hts : Halts 1 ts) (h : parseMore ts = .ok r) : Spells (.more r.value) ts r.rest ∧ Halts 0 r.rest := by
  match ts with
  | [] =>
    rw [parseMore] at h
    cases h
    exact ⟨spells_nil .no_more, halts_nil⟩
  | t :: rest =>
    rw [parseMore] at h
    split at h
    · next hcomma =>
      obtain ⟨next, hnext, h⟩ := bind_eq_ok.mp h
      obtain ⟨others, hothers, h⟩ := bind_eq_ok.mp h
      cases h
      have hshort := next.shorter
      obtain ⟨⟨xs, hxs, hone⟩, hhalt⟩ := derives_parseOne hend.tail hnext
      obtain ⟨⟨ys, hys, hmore⟩, hhalt'⟩ := derives_parseMore (hend.tail.behind hxs) hhalt hothers
      refine ⟨⟨t.lexeme :: (xs ++ ys), ?_, .more hcomma hone hmore⟩, hhalt'⟩
      rw [List.map_cons, hxs, hys, List.cons_append, List.append_assoc]
    · next hcomma =>
      cases h
      refine ⟨spells_nil .no_more, hts.tighten fun t' rest' heq hjoint => hcomma ?_⟩
      rw [(List.cons.inj heq).1]
      exact eq_comma_of_jointLevel hjoint
termination_by (ts.length, 0)

theorem derives_parseOne {ts : List Token} {r : Parsed Expr ts} (hend : EndsUnnamed ts)
    (h : parseOne ts = .ok r) : Spells (.one r.value) ts r.rest ∧ Halts 1 r.rest := by
  rw [parseOne] at h
  obtain ⟨condition, hcondition, h⟩ := bind_eq_ok.mp h
  have hshort := condition.shorter
  obtain ⟨⟨xs, hxs, hlevel⟩, hhalt⟩ := derives_parseLevel (by decide) hend hcondition
  have hbehind := hend.behind hxs
  dsimp only at h
  split at h
  · next hasks =>
    obtain ⟨thenExpr, hthen, h⟩ := bind_eq_ok.mp h
    obtain ⟨colon, hcolon, h⟩ := bind_eq_ok.mp h
    obtain ⟨elseExpr, helse, h⟩ := bind_eq_ok.mp h
    cases h
    obtain ⟨mark, hmark, hquestion⟩ := skipSymbol_true hasks
    have hmarked := (skipSymbol .question condition.rest).noLonger
    have hthenShort := thenExpr.shorter
    have hcolonShort := colon.shorter
    have hbehind := hbehind.behind_one hmark
    obtain ⟨⟨ys, hys, ht⟩, -⟩ := derives_parseOne hbehind hthen
    obtain ⟨heq, hcolon⟩ := expectToken_eq_ok hcolon
    have hbehind := (hbehind.behind hys).behind_one heq
    obtain ⟨⟨zs, hzs, he⟩, hhalt'⟩ := derives_parseOne hbehind helse
    refine ⟨⟨xs ++ mark.lexeme :: (ys ++ colon.value.lexeme :: zs), ?_,
      .conditional hlevel hquestion ht hcolon he⟩, hhalt'⟩
    rw [hxs, hmark, hys, heq, hzs, List.append_assoc, List.cons_append, List.append_assoc,
      List.cons_append]
  · next hasks =>
    cases h
    refine ⟨⟨xs, hxs, .one hlevel⟩, hhalt.tighten fun t rest heq hjoint => ?_⟩
    exact (skipSymbol_false hasks).2 t rest heq (eq_question_of_jointLevel hjoint)
termination_by (ts.length, 11)

theorem derives_parseLevel {n : Nat} {ts : List Token} {r : Parsed Expr ts} (hn : n ≤ 6)
    (hend : EndsUnnamed ts) (h : parseLevel n ts = .ok r) :
    Spells (.level n r.value) ts r.rest ∧ Halts (n + 2) r.rest := by
  rw [parseLevel] at h
  split at h
  · next hlt =>
    obtain ⟨first, hfirst, h⟩ := bind_eq_ok.mp h
    obtain ⟨chain, hchain, h⟩ := bind_eq_ok.mp h
    cases h
    have hshort := first.shorter
    obtain ⟨⟨xs, hxs, hlevel⟩, hhalt⟩ := derives_parseLevel hlt hend hfirst
    obtain ⟨⟨ys, hys, hall⟩, hhalt'⟩ := derives_parseChain hlt (hend.behind hxs) hhalt hchain
    exact ⟨⟨xs ++ ys, by rw [hxs, hys, List.append_assoc], .level hlt hlevel hall⟩, hhalt'⟩
  · next hlt =>
    have hsix : n = 6 := by omega
    subst hsix
    obtain ⟨⟨xs, hxs, hunary⟩, hhalt⟩ := derives_parseUnary hend h
    refine ⟨⟨xs, hxs, .last_level hunary⟩, Halts.tighten hhalt fun t rest heq hjoint => ?_⟩
    have haccess := accesses_of_jointLevel hjoint (by decide)
    rw [jointLevel_of_accesses haccess] at hjoint
    cases hjoint
termination_by (ts.length, 4 + (6 - n))

theorem derives_parseChain {n : Nat} {left : Expr} {ts : List Token} {r : Followed Expr ts}
    (hn : n < 6) (hend : EndsUnnamed ts) (hts : Halts (n + 3) ts)
    (h : parseChain n left ts = .ok r) : Spells (.chain n left r.value) ts r.rest ∧ Halts (n + 2) r.rest := by
  match ts with
  | [] =>
    rw [parseChain] at h
    cases h
    exact ⟨spells_nil .chain_end, halts_nil⟩
  | t :: rest =>
    rw [parseChain] at h
    split at h
    · next hop =>
      cases h
      refine ⟨spells_nil .chain_end, hts.tighten fun t' rest' heq hjoint => ?_⟩
      rw [← (List.cons.inj heq).1] at hjoint
      exact operatorAt_of_jointLevel hn hjoint hop
    · next op hop =>
      obtain ⟨right, hright, h⟩ := bind_eq_ok.mp h
      obtain ⟨chain, hchain, h⟩ := bind_eq_ok.mp h
      cases h
      have hshort := right.shorter
      obtain ⟨⟨xs, hxs, hlevel⟩, hhalt⟩ := derives_parseLevel hn hend.tail hright
      obtain ⟨⟨ys, hys, hall⟩, hhalt'⟩ := derives_parseChain hn (hend.tail.behind hxs) hhalt hchain
      refine ⟨⟨t.lexeme :: (xs ++ ys), ?_, .chain hop hlevel hall⟩, hhalt'⟩
      rw [List.map_cons, hxs, hys, List.cons_append, List.append_assoc]
termination_by (ts.length, 0)

theorem derives_parseUnary {ts : List Token} {r : Parsed Expr ts} (hend : EndsUnnamed ts)
    (h : parseUnary ts = .ok r) : Spells (.unary r.value) ts r.rest ∧ Halts 9 r.rest := by
  match ts with
  | [] =>
    rw [parseUnary] at h
    obtain ⟨⟨xs, hxs, hall⟩, hhalt⟩ := derives_parsePostfix hend h
    exact ⟨⟨xs, hxs, .no_unary hall⟩, hhalt⟩
  | t :: rest =>
    rw [parseUnary] at h
    split at h
    · next op hop =>
      obtain ⟨operand, hoperand, h⟩ := bind_eq_ok.mp h
      cases h
      have hshort := operand.shorter
      obtain ⟨⟨xs, hxs, hunary⟩, hhalt⟩ := derives_parseUnary hend.tail hoperand
      refine ⟨⟨t.lexeme :: xs, ?_, .unary hop hunary⟩, hhalt⟩
      rw [List.map_cons, hxs, List.cons_append]
    · obtain ⟨⟨xs, hxs, hall⟩, hhalt⟩ := derives_parsePostfix hend h
      exact ⟨⟨xs, hxs, .no_unary hall⟩, hhalt⟩
termination_by (ts.length, 3)

theorem derives_parsePostfix {ts : List Token} {r : Parsed Expr ts} (hend : EndsUnnamed ts)
    (h : parsePostfix ts = .ok r) : Spells (.suffixed r.value) ts r.rest ∧ Halts 9 r.rest := by
  rw [parsePostfix] at h
  obtain ⟨first, hfirst, h⟩ := bind_eq_ok.mp h
  obtain ⟨all, hall, h⟩ := bind_eq_ok.mp h
  cases h
  have hshort := first.shorter
  obtain ⟨xs, hxs, hprimary⟩ := derives_parsePrimary hend hfirst
  obtain ⟨⟨ys, hys, haccesses⟩, hhalt⟩ := derives_parseAccesses (hend.behind hxs) hall
  exact ⟨⟨xs ++ ys, by rw [hxs, hys, List.append_assoc], hprimary.suffixed_append haccesses⟩, hhalt⟩
termination_by (ts.length, 2)

theorem derives_parseAccesses {target : Expr} {ts : List Token} {r : Followed Expr ts}
    (hend : EndsUnnamed ts) (h : parseAccesses target ts = .ok r) :
    Spells (.accesses target r.value) ts r.rest ∧ Halts 9 r.rest := by
  match ts with
  | [] =>
    rw [parseAccesses] at h
    cases h
    exact ⟨spells_nil .accesses_end, halts_nil⟩
  | t :: rest =>
    rw [parseAccesses.eq_def] at h
    dsimp only at h
    split at h
    · next hdot =>
      split at h
      · cases h
      · next name after =>
        split at h
        · next hname =>
          obtain ⟨all, hall, h⟩ := bind_eq_ok.mp h
          cases h
          have hin : name.kind ≠ .eof := fun heof => by
            have hunnamed : namesProperty name = false := hend name.lexeme (by simp) heof
            rw [hunnamed] at hname
            cases hname
          have hbeyond : beyond name after = after := if_neg hin
          have hlen : (beyond name after).length < (t :: name :: after).length :=
            Nat.lt_succ_of_le (beyond_noLonger name after)
          have hbehind : EndsUnnamed (beyond name after) := by
            rw [hbeyond]
            exact hend.tail.tail
          obtain ⟨⟨xs, hxs, haccesses⟩, hhalt⟩ := derives_parseAccesses hbehind hall
          refine ⟨⟨t.lexeme :: name.lexeme :: xs, ?_, .member hdot hname hin haccesses⟩, hhalt⟩
          have hafter := congrArg (List.map Token.lexeme) hbeyond
          rw [List.map_cons, List.map_cons, ← hafter, hxs, List.cons_append, List.cons_append]
        · cases h
    · next hbracket =>
      obtain ⟨index, hindex, h⟩ := bind_eq_ok.mp h
      obtain ⟨close, hclose, h⟩ := bind_eq_ok.mp h
      obtain ⟨all, hall, h⟩ := bind_eq_ok.mp h
      cases h
      have hshort := index.shorter
      have hcloseShort := close.shorter
      obtain ⟨⟨xs, hxs, hkey⟩, -⟩ := derives_parseSequence hend.tail hindex
      obtain ⟨heq, hclose⟩ := expectToken_eq_ok hclose
      have hbehind := (hend.tail.behind hxs).behind_one heq
      obtain ⟨⟨ys, hys, haccesses⟩, hhalt⟩ := derives_parseAccesses hbehind hall
      refine ⟨⟨t.lexeme :: (xs ++ close.value.lexeme :: ys), ?_,
        .index hbracket hkey hclose haccesses⟩, hhalt⟩
      rw [List.map_cons, hxs, heq, hys, List.cons_append, List.append_assoc, List.cons_append]
    · next hparen =>
      obtain ⟨args, hargs, h⟩ := bind_eq_ok.mp h
      obtain ⟨all, hall, h⟩ := bind_eq_ok.mp h
      cases h
      have hshort := args.shorter
      obtain ⟨xs, hxs, hlist⟩ := derives_parseArgs hend.tail hargs
      obtain ⟨⟨ys, hys, haccesses⟩, hhalt⟩ := derives_parseAccesses (hend.tail.behind hxs) hall
      refine ⟨⟨t.lexeme :: (xs ++ ys), ?_, .call hparen hlist haccesses⟩, hhalt⟩
      rw [List.map_cons, hxs, hys, List.cons_append, List.append_assoc]
    · next hdot hbracket hparen =>
      cases h
      refine ⟨spells_nil .accesses_end, stops_cons fun m hm => Nat.lt_of_not_le fun hle => ?_⟩
      have haccess := accesses_of_jointLevel hm (by omega)
      rw [accesses, Bool.or_eq_true, Bool.or_eq_true, decide_eq_true_eq, decide_eq_true_eq,
        decide_eq_true_eq] at haccess
      rcases haccess with (haccess | haccess) | haccess
      · exact hdot haccess
      · exact hbracket haccess
      · exact hparen haccess
termination_by (ts.length, 1)

theorem derives_parseArgs {ts : List Token} {r : Parsed (List Expr) ts} (hend : EndsUnnamed ts)
    (h : parseArgs ts = .ok r) : Spells (.args r.value) ts r.rest := by
  rw [parseArgs] at h
  dsimp only at h
  split at h
  · next hshort =>
    cases h
    have hvalue : (skipSymbol .rparen ts).value = true := by
      by_cases hvalue : (skipSymbol .rparen ts).value = true
      · exact hvalue
      · rw [(skipSymbol_false hvalue).1] at hshort
        exact absurd hshort (Nat.lt_irrefl _)
    obtain ⟨t, heq, hclose⟩ := skipSymbol_true hvalue
    exact ⟨[t.lexeme], heq, .no_args hclose⟩
  · obtain ⟨first, hfirst, h⟩ := bind_eq_ok.mp h
    obtain ⟨others, hothers, h⟩ := bind_eq_ok.mp h
    obtain ⟨close, hclose, h⟩ := bind_eq_ok.mp h
    cases h
    have hshort := first.shorter
    obtain ⟨⟨xs, hxs, hone⟩, hhalt⟩ := derives_parseOne hend hfirst
    obtain ⟨⟨ys, hys, hmore⟩, -⟩ := derives_parseMore (hend.behind hxs) hhalt hothers
    obtain ⟨heq, hclose⟩ := expectToken_eq_ok hclose
    refine ⟨xs ++ (ys ++ [close.value.lexeme]), ?_, .args hone hmore hclose⟩
    rw [hxs, hys, heq, List.append_assoc, List.append_assoc]
    rfl
termination_by (ts.length, 12)

theorem derives_parsePrimary {ts : List Token} {r : Parsed Expr ts} (hend : EndsUnnamed ts)
    (h : parsePrimary ts = .ok r) : Spells (.suffixed r.value) ts r.rest := by
  match ts with
  | [] =>
    rw [parsePrimary] at h
    cases h
  | t :: rest =>
    rw [parsePrimary.eq_def] at h
    dsimp only at h
    split at h
    · next hparen =>
      obtain ⟨inner, hinner, h⟩ := bind_eq_ok.mp h
      obtain ⟨close, hclose, h⟩ := bind_eq_ok.mp h
      cases h
      obtain ⟨⟨xs, hxs, hsequence⟩, -⟩ := derives_parseSequence hend.tail hinner
      obtain ⟨heq, hclose⟩ := expectToken_eq_ok hclose
      refine Spells.suffixed ⟨t.lexeme :: (xs ++ [close.value.lexeme]), ?_,
        .parenthesised hparen hsequence hclose⟩
      rw [List.map_cons, hxs, heq, List.cons_append, List.append_assoc]
      rfl
    · next hbracket =>
      obtain ⟨items, hitems, h⟩ := bind_eq_ok.mp h
      obtain ⟨close, hclose, h⟩ := bind_eq_ok.mp h
      cases h
      obtain ⟨xs, hxs, hlist⟩ := derives_parseItems hend.tail hitems
      obtain ⟨heq, hclose⟩ := expectToken_eq_ok hclose
      refine Spells.suffixed ⟨t.lexeme :: (xs ++ [close.value.lexeme]), ?_,
        .array hbracket hlist hclose⟩
      rw [List.map_cons, hxs, heq, List.cons_append, List.append_assoc]
      rfl
    · next hbrace =>
      obtain ⟨entries, hentries, h⟩ := bind_eq_ok.mp h
      obtain ⟨close, hclose, h⟩ := bind_eq_ok.mp h
      cases h
      obtain ⟨xs, hxs, hlist⟩ := derives_parseEntries hend.tail hentries
      obtain ⟨heq, hclose⟩ := expectToken_eq_ok hclose
      refine Spells.suffixed ⟨t.lexeme :: (xs ++ [close.value.lexeme]), ?_,
        .object hbrace hlist hclose⟩
      rw [List.map_cons, hxs, heq, List.cons_append, List.append_assoc]
      rfl
    · next hnew =>
      obtain ⟨inner, hinner, h⟩ := bind_eq_ok.mp h
      cases h
      obtain ⟨⟨xs, hxs, hall⟩, -⟩ := derives_parsePostfix hend.tail hinner
      exact ⟨t.lexeme :: xs, by rw [List.map_cons, hxs, List.cons_append], .construct hnew hall⟩
    · split at h
      · next e hliteral =>
        cases h
        exact Spells.suffixed ⟨[t.lexeme], rfl, .literal hliteral⟩
      · cases h
      · cases h
termination_by (ts.length, 1)

theorem derives_parseItems {ts : List Token} {r : Followed (List Expr) ts} (hend : EndsUnnamed ts)
    (h : parseItems ts = .ok r) : Spells (.items r.value) ts r.rest := by
  rw [parseItems] at h
  split at h
  · cases h
    exact spells_nil .no_items
  · obtain ⟨first, hfirst, h⟩ := bind_eq_ok.mp h
    have hshort := first.shorter
    obtain ⟨⟨xs, hxs, hone⟩, -⟩ := derives_parseOne hend hfirst
    dsimp only at h
    split at h
    · next hcontinues =>
      obtain ⟨others, hothers, h⟩ := bind_eq_ok.mp h
      cases h
      have hcommaShort := (skipSymbol .comma first.rest).noLonger
      obtain ⟨comma, heq, hcomma⟩ := skipSymbol_true hcontinues
      obtain ⟨ys, hys, hmore⟩ := derives_parseItems ((hend.behind hxs).behind_one heq) hothers
      refine ⟨xs ++ comma.lexeme :: ys, ?_, .item hone hcomma hmore⟩
      rw [hxs, heq, hys, List.append_assoc, List.cons_append]
    · cases h
      exact ⟨xs, hxs, .last_item hone⟩
termination_by (ts.length, 12)

theorem derives_parseEntries {ts : List Token} {r : Followed (List (String × Expr)) ts}
    (hend : EndsUnnamed ts) (h : parseEntries ts = .ok r) :
    Spells (.entries r.value) ts r.rest := by
  match ts with
  | [] =>
    rw [parseEntries] at h
    cases h
  | key :: rest =>
    by_cases hbrace : key.kind = .symbol .rbrace
    · rw [parseEntries.eq_def] at h
      dsimp only at h
      rw [if_pos hbrace] at h
      cases h
      exact spells_nil .no_entries
    by_cases hkey : IsKey key.kind
    · have hkey' : IsKey key.lexeme.kind := hkey
      rw [parseEntries_cons hkey] at h
      obtain ⟨entry, hentry, h⟩ := bind_eq_ok.mp h
      have hshort := entry.noLonger
      obtain ⟨xs, hxs, hvalue⟩ : Spells (.entry key.lexeme entry.value) rest entry.rest := by
        rw [parseEntry] at hentry
        dsimp only at hentry
        split at hentry
        · next hvalued =>
          obtain ⟨value, hone, hentry⟩ := bind_eq_ok.mp hentry
          cases hentry
          have hcolonShort := (skipSymbol .colon rest).noLonger
          obtain ⟨colon, heq, hcolon⟩ := skipSymbol_true hvalued
          obtain ⟨⟨xs, hxs, hone⟩, -⟩ := derives_parseOne (hend.tail.behind_one heq) hone
          refine ⟨colon.lexeme :: xs, ?_, .value hcolon hone⟩
          rw [heq, hxs, List.cons_append]
        · split at hentry
          · next hident =>
            cases hentry
            exact spells_nil (@Derives.shorthand key.lexeme hident)
          · cases hentry
      dsimp only at h
      split at h
      · next hcontinues =>
        obtain ⟨others, hothers, h⟩ := bind_eq_ok.mp h
        cases h
        have hcommaShort := (skipSymbol .comma entry.rest).noLonger
        obtain ⟨comma, heq, hcomma⟩ := skipSymbol_true hcontinues
        have hbehind := (hend.tail.behind hxs).behind_one heq
        obtain ⟨ys, hys, hmore⟩ := derives_parseEntries hbehind hothers
        refine ⟨key.lexeme :: (xs ++ comma.lexeme :: ys), ?_,
          .entries hkey' hvalue hcomma hmore⟩
        rw [List.map_cons, hxs, heq, hys, List.cons_append, List.append_assoc, List.cons_append]
      · cases h
        refine ⟨key.lexeme :: xs, ?_, .last_entry hkey' hvalue⟩
        rw [List.map_cons, hxs, List.cons_append]
    · rw [parseEntries.eq_def] at h
      dsimp only at h
      rw [IsKey, not_or, not_or] at hkey
      rw [if_neg hbrace, if_pos (by simp [hkey])] at h
      cases h
termination_by (ts.length, 12)

end

/-! ## The end of input -/

theorem ne_eof_of_operatorAt {n : Nat} {x : Lexeme} {op : BinaryOp}
    (h : operatorAt n x.kind = some op) : Lexeme.eof ≠ x := by
  rintro rfl
  have hnone : operatorAt n Lexeme.eof.kind = none := operatorAt_eof n
  rw [hnone] at h
  cases h

/-- No phrase contains the end of input. -/
theorem Derives.eof_not_mem {p : Phrase} {xs : List Lexeme} (h : Derives p xs) :
    Lexeme.eof ∉ xs := by
  have hnames : Lexeme.eof.names = false := rfl
  have hliteral : Lexeme.eof.literal? = none := rfl
  have hunary : unaryOperator Lexeme.eof.kind = none := rfl
  have hkey : ¬ IsKey Lexeme.eof.kind := by
    rintro (h | h | h) <;> cases h
  have hkind : Lexeme.eof.kind = .eof := rfl
  induction h with
  | entries hkey' _ hcomma _ ih ihmore =>
    rw [List.mem_cons, List.mem_append, List.mem_cons]
    rintro (rfl | h | rfl | h)
    · exact hkey hkey'
    · exact ih h
    · exact nomatch hcomma
    · exact ihmore h
  | last_entry hkey' _ ih =>
    rw [List.mem_cons]
    rintro (rfl | h)
    · exact hkey hkey'
    · exact ih h
  | _ => grind [ne_eof_of_operatorAt]

end Script
end Vitrine
