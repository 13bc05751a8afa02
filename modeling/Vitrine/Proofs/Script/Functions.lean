import Vitrine.Proofs.Script.Statements

/-!
# Reading arrow functions

An arrow function with a list of parameters and a block is read as its parameters and its statements
(`parseFunction_of_tokens`).
-/
namespace Vitrine
namespace Script

variable {xs ys zs : List Lexeme} {ss : List Stmt}

/-- The tokens of names with a comma in front of each. -/
def moreNames : List String → List Lexeme
  | [] => []
  | name :: names => symbolLexeme .comma :: ⟨.ident, name⟩ :: moreNames names

/-- The tokens of names with commas between them. -/
def nameTokens : List String → List Lexeme
  | [] => []
  | name :: names => ⟨.ident, name⟩ :: moreNames names

theorem skims_moreNames (names : List String) (hys : frontKind ys ≠ .symbol .comma) :
    Skims parseMoreNames (moreNames names ++ ys) names ys := by
  induction names with
  | nil =>
    intro ts hts
    cases ts with
    | nil => exact ⟨[], Nat.le_refl _, rfl, hts⟩
    | cons t rest =>
      rw [← show (t :: rest).map Token.lexeme = ys from hts] at hys
      refine ⟨t :: rest, Nat.le_refl _, ?_, hts⟩
      rw [parseMoreNames.eq_def]
      dsimp only
      rw [if_neg (show t.kind ≠ _ from hys)]
  | cons name names ih =>
    intro ts hts
    obtain ⟨t, rest, rfl, hkind, -, hrest⟩ := map_lexeme_cons hts
    obtain ⟨t', rest', rfl, hkind', htext, hrest'⟩ := map_lexeme_cons hrest
    obtain ⟨r, hr, heq, hmap⟩ := ih rest' hrest'
    refine ⟨r, by rw [List.length_cons, List.length_cons]; omega, ?_, hmap⟩
    rw [parseMoreNames.eq_def]
    dsimp only
    rw [if_pos (show t.kind = .symbol .comma from hkind), if_pos hkind', heq, htext]
    rfl

theorem reads_params (names : List String) :
    Reads parseParams
      (symbolLexeme .lparen :: (nameTokens names ++ symbolLexeme .rparen :: ys)) names ys := by
  intro ts hts
  obtain ⟨t, rest, hs, heq, hmap⟩ := reads_token _ _ hts
  cases names with
  | nil =>
    obtain ⟨t', rest', hs', heq', hmap'⟩ := reads_token _ _ hmap
    have hclose : (current rest).kind = .symbol .rparen := by
      rw [current_kind, hmap]
      rfl
    refine ⟨rest', by omega, ?_, hmap'⟩
    rw [parseParams, show expectToken (.symbol .lparen) ts = _ from heq, ok_bind]
    dsimp only
    rw [if_pos hclose, show expectToken (.symbol .rparen) rest = _ from heq']
    rfl
  | cons name names =>
    obtain ⟨t', rest', rfl, hkind', htext, hmap'⟩ := map_lexeme_cons hmap
    have hparen : frontKind (symbolLexeme .rparen :: ys) ≠ .symbol .comma := by
      rw [show frontKind (symbolLexeme .rparen :: ys) = .symbol .rparen from rfl]
      decide
    obtain ⟨r, hr, hmore, hmap''⟩ := skims_moreNames names hparen rest' hmap'
    obtain ⟨t'', r', hr', hclose, hlast⟩ := reads_token _ _ hmap''
    have hopen : (current (t' :: rest')).kind ≠ .symbol .rparen := by
      rw [current, hkind']
      simp
    rw [List.length_cons] at hs
    refine ⟨r', by omega, ?_, hlast⟩
    rw [parseParams, show expectToken (.symbol .lparen) ts = _ from heq, ok_bind]
    dsimp only
    rw [if_neg hopen, expectToken, if_pos hkind', ok_bind]
    dsimp only
    rw [hmore, ok_bind]
    dsimp only
    rw [show expectToken (.symbol .rparen) r = _ from hclose, htext]
    rfl

theorem reads_block
    (h : Skims (parseStmts (.symbol .rbrace)) xs ss (symbolLexeme .rbrace :: ys)) :
    Reads parseBlock (symbolLexeme .lbrace :: xs) ss ys := by
  intro ts hts
  obtain ⟨t, rest, hs, heq, hmap⟩ := reads_token _ _ hts
  obtain ⟨r, hr, hstmts, hmap'⟩ := h rest hmap
  obtain ⟨t', r', hr', hclose, hlast⟩ := reads_token _ _ hmap'
  refine ⟨r', by omega, ?_, hlast⟩
  rw [parseBlock, show expectToken (.symbol .lbrace) ts = _ from heq, ok_bind]
  dsimp only
  rw [hstmts, ok_bind]
  dsimp only
  rw [show expectToken (.symbol .rbrace) r = _ from hclose]
  rfl

/-- The tokens of an arrow function whose statements are those of `xs`. -/
def arrowTokens (names : List String) (xs : List Lexeme) : List Lexeme :=
  symbolLexeme .lparen :: (nameTokens names ++ symbolLexeme .rparen :: symbolLexeme .arrow ::
    symbolLexeme .lbrace :: (xs ++ [symbolLexeme .rbrace]))

theorem reads_arrow (names : List String)
    (h : Skims (parseStmts (.symbol .rbrace)) (xs ++ symbolLexeme .rbrace :: ys) ss
      (symbolLexeme .rbrace :: ys)) :
    Reads parseFunctionAt (arrowTokens names xs ++ ys) ⟨names, ss⟩ ys := by
  intro ts hts
  have htokens : ts.map Token.lexeme = symbolLexeme .lparen :: (nameTokens names ++
      symbolLexeme .rparen :: symbolLexeme .arrow :: symbolLexeme .lbrace ::
        (xs ++ symbolLexeme .rbrace :: ys)) := by
    rw [hts, arrowTokens]
    simp only [List.cons_append, List.append_assoc, List.nil_append]
  have hfront : (current ts).kind = .symbol .lparen := by
    rw [current_kind, htokens]
    rfl
  obtain ⟨r, hr, hparams, hmap⟩ := reads_params names ts htokens
  obtain ⟨t, r', hr', harrow, hmap'⟩ := reads_token _ _ hmap
  obtain ⟨r'', hr'', hblock, hmap''⟩ := reads_block h r' hmap'
  have hasync : ¬ (decide ((current ts).kind = .ident) && decide ((current ts).text = "async")) =
      true := by
    rw [hfront]
    exact Bool.false_ne_true
  have hword : (current ts).kind ≠ .keyword .kwFunction := by
    rw [hfront]
    exact fun h => nomatch h
  have harrowParams : parseArrowParams ts = .ok ⟨names, r, hr⟩ := by
    have hname : ¬ (decide ((current ts).kind = .ident) &&
        decide ((upcoming ts).kind = .symbol .arrow)) = true := by
      rw [hfront]
      exact Bool.false_ne_true
    rw [parseArrowParams, if_neg hname, hparams]
  have hbrace : (current r').kind = .symbol .lbrace := by
    rw [current_kind, hmap']
    rfl
  refine ⟨r'', by omega, ?_, hmap''⟩
  rw [parseFunctionAt]
  dsimp only
  rw [if_neg hasync, if_neg hword, harrowParams, ok_bind]
  dsimp only
  rw [show expectToken (.symbol .arrow) r = _ from harrow, ok_bind]
  dsimp only
  rw [parseArrowBody, if_pos hbrace, hblock]
  rfl

/-- A text with the tokens of an arrow function is read as that function. -/
theorem parseFunction_of_tokens {source : String} {ts : List Token} {names : List String}
    (htokens : tokens source = .ok ts)
    (hts : ts.map Token.lexeme = arrowTokens names xs ++ [.eof])
    (h : DerivesStmts ss xs [symbolLexeme .rbrace, .eof]) :
    parseFunction source = .ok ⟨names, ss⟩ := by
  obtain ⟨r, hr, hfunction, hmap⟩ := reads_arrow names (h.skims rfl (.inl rfl)) ts hts
  obtain ⟨hs, hskip⟩ := skipSymbol_of_ne (s := .semicolon) hmap fun y ys hy => by
    rw [← (List.cons.inj hy).1]
    exact fun h => nomatch h
  have hend : expectEnd r = .ok () := by
    rw [expectEnd, current_kind, hmap]
    rfl
  rw [parseFunction, htokens, ok_bind, hfunction, ok_bind]
  dsimp only
  rw [hskip]
  dsimp only
  rw [hend]
  rfl

end Script
end Vitrine
