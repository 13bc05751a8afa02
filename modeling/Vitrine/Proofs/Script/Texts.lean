import Mathlib.Data.List.Forall2
import Vitrine.Proofs.Script.Functions
import Vitrine.Proofs.Script.Joining
import Vitrine.Proofs.Script.Running
import Vitrine.Value.Display

/-!
# Whole texts

What the tokens of a text derive if the text is an expression (`derives_parseExpr`) or statements
(`derives_parseStatements`), and the tokens of texts that are composed of such texts.
-/
namespace Vitrine
namespace Script

variable {xs ys : List Lexeme} {more : List Char}

theorem lex_of_tokens {source : String} {ts : List Token} (h : tokens source = .ok ts) :
    lex 0 source.toList = .ok ts := by
  rw [tokens] at h
  split at h
  · next hts =>
    cases h
    exact hts
  · cases h
  · cases h

theorem tokens_of_lexes {source : String} (h : Lexes source.toList xs) :
    ∃ ts, tokens source = .ok ts ∧ ts.map Token.lexeme = xs ++ [.eof] := by
  obtain ⟨ts, hlex, hmap⟩ := h 0
  exact ⟨ts, by rw [tokens, tokenize, hlex], hmap⟩

/-- Tokens that are read up to the end of input are all but the last. -/
theorem rest_eq_eof {us vs : List Lexeme} (h : xs ++ [.eof] = us ++ vs) (hxs : ∀ x ∈ xs, x.kind ≠ .eof)
    (hus : Lexeme.eof ∉ us) (hvs : frontKind vs = .eof) : us = xs ∧ vs = [.eof] := by
  cases vs with
  | nil =>
    rw [List.append_nil] at h
    rw [← h] at hus
    exact absurd (List.mem_append_right xs List.mem_cons_self) hus
  | cons v vs =>
    rcases List.eq_nil_or_concat vs with rfl | ⟨ws, w, rfl⟩
    · obtain ⟨hinit, hlast⟩ := List.append_inj' h rfl
      exact ⟨hinit.symm, hlast.symm⟩
    · rw [List.concat_eq_append, ← List.cons_append, ← List.append_assoc] at h
      obtain ⟨hinit, -⟩ := List.append_inj' h rfl
      rw [hinit] at hxs
      exact absurd hvs (hxs v (List.mem_append_right us List.mem_cons_self))

theorem endsUnnamed_of_eof {ts : List Token} (h : ts.map Token.lexeme = xs ++ [.eof])
    (hxs : ∀ x ∈ xs, x.kind ≠ .eof) : EndsUnnamed ts := by
  intro x hx heof
  rw [h, List.mem_append, List.mem_singleton] at hx
  rcases hx with hx | rfl
  · exact absurd heof (hxs x hx)
  · rfl

/-- The tokens of a text that is an expression. -/
theorem derives_parseExpr {text : String} {e : Expr} (h : parseExpr text = .ok e) :
    ∃ xs, Lexes text.toList xs ∧ Derives (.sequence e) xs := by
  rw [parseExpr] at h
  obtain ⟨ts, hts, h⟩ := bind_eq_ok.mp h
  obtain ⟨r, hr, h⟩ := bind_eq_ok.mp h
  obtain ⟨u, hend, h⟩ := bind_eq_ok.mp h
  cases h
  have hlex := lex_of_tokens hts
  obtain ⟨xs, hxs, hkinds⟩ := lex_eof hlex
  obtain ⟨⟨us, hus, hsequence⟩, -⟩ := derives_parseSequence (endsUnnamed_of_eof hxs hkinds) hr
  have hfront : frontKind (r.rest.map Token.lexeme) = .eof := by
    rw [expectEnd, current_kind] at hend
    split at hend
    · assumption
    · cases hend
  obtain ⟨rfl, -⟩ := rest_eq_eof (hxs.symm.trans hus) hkinds hsequence.eof_not_mem hfront
  exact ⟨us, lexes_of_lex hlex hxs, hsequence⟩

/-- A text with the tokens of an expression is read as that expression. -/
theorem parseExpr_of_lexes {text : String} {e : Expr} (h : Lexes text.toList xs)
    (he : Derives (.sequence e) xs) : parseExpr text = .ok e := by
  obtain ⟨ts, htokens, hmap⟩ := tokens_of_lexes h
  have hstops : Stops 0 [Lexeme.eof] := stops_of_none rfl
  obtain ⟨rest, hrest, hparse, hend⟩ := he.parses [.eof] hstops ts hmap
  obtain ⟨t, rest', rfl, hkind, -, -⟩ := map_lexeme_cons hend
  have hstop : expectEnd (t :: rest') = .ok () := if_pos hkind
  rw [parseExpr, htokens, ok_bind, hparse, ok_bind]
  dsimp only
  rw [hstop]
  rfl

/-- The tokens of a text that is statements. -/
theorem derives_parseStatements {text : String} {ss : List Stmt} (h : parseStatements text = .ok ss) :
    ∃ xs ts, tokens text = .ok ts ∧ ts.map Token.lexeme = xs ++ [.eof] ∧
      DerivesStmts ss xs [.eof] := by
  rw [parseStatements] at h
  obtain ⟨ts, hts, h⟩ := bind_eq_ok.mp h
  obtain ⟨r, hr, h⟩ := bind_eq_ok.mp h
  obtain ⟨u, hend, h⟩ := bind_eq_ok.mp h
  cases h
  have hlex := lex_of_tokens hts
  obtain ⟨xs, hxs, hkinds⟩ := lex_eof hlex
  obtain ⟨us, hus, hstmts, hfront⟩ := derives_parseStmts (endsUnnamed_of_eof hxs hkinds) hr
  obtain ⟨rfl, hrest⟩ := rest_eq_eof (hxs.symm.trans hus) hkinds hstmts.eof_not_mem
    (hfront.elim id id)
  rw [hrest] at hstmts
  exact ⟨us, ts, hts, hxs, hstmts⟩

/-! ## Names -/

theorem IsName.lexes {word : String} (h : IsName word) :
    Lexes word.toList [wordLexeme word] ∧ IsClosed word.toList := by
  have htoken := isToken_word h
  have hspelling : (⟨kindOfWord word, word⟩ : Lexeme).spelling = word.toList := by
    refine Lexeme.spelling_of_ne ?_
    rw [kindOfWord]
    split <;> simp
  have hlexes := htoken.lexes
  have hclosed := htoken.isClosed
  rw [hspelling] at hlexes hclosed
  exact ⟨hlexes, hclosed⟩

/-- Names that stand for themselves: not keywords, and nothing behind them. -/
def IsPlainName (name : String) : Prop := IsName name ∧ kindOfWord name = .ident

instance (name : String) : Decidable (IsPlainName name) := inferInstanceAs (Decidable (_ ∧ _))

theorem IsPlainName.lexes {name : String} (h : IsPlainName name) :
    Lexes name.toList [⟨.ident, name⟩] ∧ IsClosed name.toList := by
  have hlexes := h.1.lexes
  rwa [wordLexeme, h.2] at hlexes

theorem IsPlainName.parseExpr {name : String} (h : IsPlainName name) :
    Script.parseExpr name = .ok (.ident name) := by
  have hname : Derives (phraseAt 10 (.ident name)) [⟨.ident, name⟩] := .literal rfl
  exact parseExpr_of_lexes h.lexes.1 (hname.loosen (n := 0) (by decide) (by decide))

/-- What a token stands for depends on the value of its name, if it is a name. -/
theorem evalExpr_literal {x : Lexeme} {e : Expr} (h : x.literal? = some (.ok e))
    {s s' : Scope} (hs : x.kind = .ident → s.get? x.text = s'.get? x.text) (invoke : Invoke) :
    evalExpr invoke s e = evalExpr invoke s' e := by
  rcases Lexeme.literal?_eq h with ⟨l, rfl⟩ | rfl | ⟨hkind, rfl⟩
  · cases l <;> rfl
  · rfl
  · rw [evalExpr, evalExpr, lookUp, lookUp, lookUp?,
      lookUp?, hs hkind]

/-- A name with what follows it behind a break. -/
theorem IsPlainName.lexes_append {name : String} {s : Char} (h : IsPlainName name) (hs : s ∈ breaks)
    (hmore : Lexes (s :: more) ys) : Lexes (name.toList ++ s :: more) (⟨.ident, name⟩ :: ys) :=
  h.lexes.1.append_break hs (Or.inr h.lexes.2) hmore

theorem joinWith_cons_cons (sep s s' : String) (ss : List String) :
    joinWith sep (s :: s' :: ss) = s ++ sep ++ joinWith sep (s' :: ss) := rfl

theorem lexes_names {names : List String} (h : ∀ name ∈ names, IsPlainName name)
    (hmore : Lexes (')' :: more) ys) :
    Lexes ((joinWith ", " names).toList ++ ')' :: more) (nameTokens names ++ ys) := by
  cases names with
  | nil => exact hmore
  | cons name names =>
    induction names generalizing name with
    | nil => exact (h name List.mem_cons_self).lexes_append (by decide) hmore
    | cons other names ih =>
      have hrest := ih other fun n hn => h n (List.mem_cons_of_mem _ hn)
      have hcomma := (hrest.skip (c := ' ') (by decide)).symbol (c := ',') (s := .comma) (by decide)
      have hall := (h name List.mem_cons_self).lexes_append (by decide) hcomma
      rw [joinWith_cons_cons, String.toList_append, String.toList_append, List.append_assoc,
        List.append_assoc]
      exact hall

/-! ## Words and strings -/

theorem lexes_word {word : String} {s : Char} (h : IsName word) (hs : s ∈ breaks)
    (hmore : Lexes (s :: more) ys) : Lexes (word.toList ++ s :: more) (wordLexeme word :: ys) :=
  h.lexes.1.append_break hs (Or.inr h.lexes.2) hmore

theorem lexes_string {f : Char → List Char} {text : List Char} (hf : ∀ c ∈ text, IsPiece c (f c))
    (hmore : Lexes more ys) :
    Lexes ('"' :: (text.flatMap f ++ '"' :: more)) (⟨.string, String.ofList text⟩ :: ys) := by
  intro pos
  obtain ⟨stop, hbody⟩ := stringBody_pieces hf pos more (pos + 1)
  obtain ⟨ts, hlex, hmap⟩ := hmore stop
  refine ⟨⟨.string, String.ofList text, pos⟩ :: ts, ?_, ?_⟩
  · rw [(lex_string rfl hbody).1, hlex]
    rfl
  · rw [List.map_cons, hmap]
    rfl

/-! ## Joined expressions -/

theorem Derives.more_append {es es' : List Expr} (h : Derives (.more es) xs)
    (h' : Derives (.more es') ys) : Derives (.more (es ++ es')) (xs ++ ys) := by
  generalize hp : Phrase.more es = p at h
  induction h generalizing es with
  | no_more =>
    cases hp
    exact h'
  | more hx hone _ _ ih =>
    cases hp
    rw [List.cons_append, List.cons_append, List.append_assoc]
    exact .more hx hone (ih rfl)
  | _ => cases hp

/-- Texts of expressions with commas between them. A comment at the end of one would hide the comma
behind it. -/
theorem lexes_joined {texts : List String} {es : List Expr}
    (h : List.Forall₂ (fun text e => parseExpr text = .ok e) texts es) (hne : texts ≠ [])
    (hclosed : ∀ text ∈ texts.dropLast, endsInComment 0 text.toList = false) :
    ∃ e items us vs, Joins es (e :: items) ∧ Lexes (joinWith ", " texts).toList (us ++ vs) ∧
      Derives (.one e) us ∧ Derives (.more items) vs := by
  induction h with
  | nil => exact absurd rfl hne
  | @cons text e texts es hparse hrest ih =>
    obtain ⟨xs, hlexes, hsequence⟩ := derives_parseExpr hparse
    cases hsequence with
    | @sequence a as us vs hone hmore =>
      cases hrest with
      | nil =>
        refine ⟨a, as, us, vs, ?_, hlexes, hone, hmore⟩
        have hjoins : Joins [Expr.ofItems a as] (a :: (as ++ [])) := .cons .nil
        rwa [List.append_nil] at hjoins
      | @cons text' e' texts es hparse' hrest =>
        obtain ⟨b, bs, us', vs', hjoins, hlexes', hone', hmore'⟩ := ih (List.cons_ne_nil _ _)
          fun t ht => hclosed t (List.mem_cons_of_mem _ ht)
        have hcomma := (hlexes'.skip (c := ' ') (by decide)).symbol (c := ',') (s := .comma)
          (by decide)
        have hall := hlexes.append_break (by decide)
          (Or.inr (hlexes.isClosed (hclosed text List.mem_cons_self))) hcomma
        refine ⟨a, as ++ b :: bs, us, vs ++ symbolLexeme .comma :: (us' ++ vs'), .cons hjoins, ?_, hone,
          hmore.more_append (.more rfl hone' hmore')⟩
        rw [joinWith_cons_cons, String.toList_append, String.toList_append, List.append_assoc,
          ← List.append_assoc us]
        exact hall

/-! ## Last lines -/

/-- The statement of a line that stands in front of the closing brace of a function. -/
def IsLastLine (line : String) (st : Stmt) : Prop :=
  ∃ xs, Lexes line.toList xs ∧ (frontKind xs = .keyword .kwReturn ∨ frontKind xs = .keyword .kwThrow) ∧
    DerivesStmts [st] xs [symbolLexeme .rbrace, .eof]

theorem lexes_semicolon : Lexes [';'] [symbolLexeme .semicolon] := lexes_nil.symbol (by decide)

theorem isName_return : IsName "return" := by decide

theorem isLastLine_return : IsLastLine "return;" (.ret none) := by
  refine ⟨[wordLexeme "return", symbolLexeme .semicolon], ?_, Or.inl rfl, ?_⟩
  · exact lexes_word isName_return (by decide) lexes_semicolon
  · have hret : DerivesStmt (.ret none) [wordLexeme "return"] := .leave rfl
    exact .closed hret rfl rfl .done

theorem isLastLine_returns {texts : List String} {es : List Expr}
    (h : List.Forall₂ (fun text e => parseExpr text = .ok e) texts es) (hne : texts ≠ [])
    (hclosed : ∀ text ∈ texts.dropLast, endsInComment 0 text.toList = false) :
    ∃ e items, Joins es (e :: items) ∧
      IsLastLine ("return " ++ joinWith ", " texts ++ ";") (.ret (some (Expr.ofItems e items))) := by
  obtain ⟨e, items, us, vs, hjoins, hlexes, hone, hmore⟩ := lexes_joined h hne hclosed
  obtain ⟨tail, htail, hlexes⟩ := hlexes.semicolon
  have hline := lexes_word isName_return (by decide) (hlexes.skip (c := ' ') (by decide))
  have hret : DerivesStmt (.ret (some (Expr.ofItems e items))) (wordLexeme "return" :: (us ++ vs)) :=
    .ret rfl (.sequence hone hmore)
  refine ⟨e, items, hjoins, wordLexeme "return" :: (us ++ vs ++ tail), ?_, Or.inl rfl, ?_⟩
  · rw [String.toList_append, String.toList_append, List.append_assoc]
    exact hline
  · rcases htail with rfl | rfl
    · exact .closed hret (stops_of_none rfl) rfl .done
    · exact .bare hret (stops_of_none rfl) (by decide) .done

theorem isLastLine_throw {f : Char → List Char} {message : String}
    (hf : ∀ c ∈ message.toList, IsPiece c (f c)) :
    IsLastLine
      ("throw new Error(" ++ String.ofList ('"' :: message.toList.flatMap f ++ ['"']) ++ ");")
      (.throw (newError message)) := by
  have hclose : Lexes [')', ';'] [symbolLexeme .rparen, symbolLexeme .semicolon] :=
    lexes_semicolon.symbol (by decide)
  have hopen := (lexes_string hf hclose).symbol (c := '(') (s := .lparen) (by decide)
  have hnames : IsName "Error" ∧ IsName "new" ∧ IsName "throw" := by decide
  have herror := lexes_word hnames.1 (by decide) hopen
  have hnew := lexes_word hnames.2.1 (by decide) (herror.skip (c := ' ') (by decide))
  have hthrow := lexes_word hnames.2.2 (by decide) (hnew.skip (c := ' ') (by decide))
  rw [String.ofList_toList] at hthrow
  have hline : ("throw new Error(" ++ String.ofList ('"' :: message.toList.flatMap f ++ ['"']) ++
      ");").toList = "throw".toList ++ ' ' :: ("new".toList ++ ' ' :: ("Error".toList ++
        '(' :: '"' :: (message.toList.flatMap f ++ ['"', ')', ';']))) := by
    simp
  have hmessage : Derives (phraseAt 10 (.literal (.string message))) [⟨.string, message⟩] :=
    .literal rfl
  have hargs : Derives (.args [.literal (.string message)]) [⟨.string, message⟩, symbolLexeme .rparen] :=
    .args (hmessage.loosen (n := 1) (by decide) (by decide)) .no_more rfl
  have hcall : Derives (phraseAt 9 (newError message)) [wordLexeme "new", wordLexeme "Error",
      symbolLexeme .lparen, ⟨.string, message⟩, symbolLexeme .rparen] :=
    .construct rfl (.suffixed (.literal rfl) (.call rfl hargs .accesses_end))
  have hsequence := hcall.loosen (n := 0) (by decide) (by decide)
  refine ⟨_, ?_, Or.inr rfl, .closed (.throw (x := wordLexeme "throw") rfl hsequence)
    (stops_of_none (x := symbolLexeme .semicolon) rfl) rfl .done⟩
  rw [hline]
  exact hthrow

/-! ## Function texts -/

/-- The text of an arrow function with some lines in its block. -/
def arrowText (params lines : List String) : String :=
  "(" ++ joinWith ", " params ++ ") => \x7b\n" ++ joinWith "\n" lines ++ "\n\x7d"

theorem lexes_arrowText {params lines : List String} (hparams : ∀ name ∈ params, IsPlainName name)
    (hlines : Lexes (joinWith "\n" lines).toList xs) :
    Lexes (arrowText params lines).toList (arrowTokens params xs) := by
  have hbrace : Lexes ['\n', '\x7d'] [symbolLexeme .rbrace] :=
    (lexes_nil.symbol (c := '\x7d') (by decide)).skip (by decide)
  have hblock := (hlines.append_break (by decide) (Or.inl rfl) hbrace).skip (c := '\n') (by decide)
  have harrow : Lexes (')' :: [' ', '=', '>', ' ', '\x7b'])
      [symbolLexeme .rparen, symbolLexeme .arrow, symbolLexeme .lbrace] :=
    lexes_spelled (areSpelled_cons.mpr ⟨isSpelled_symbolLexeme .rparen,
      areSpelled_cons.mpr ⟨isSpelled_symbolLexeme .arrow, areSpelled_symbol .lbrace⟩⟩)
  have hhead := (lexes_names hparams harrow).symbol (c := '(') (s := .lparen) (by decide)
  have hall := hhead.append_break (by decide) (Or.inl rfl) hblock
  have htext : (arrowText params lines).toList = ('(' :: ((joinWith ", " params).toList ++
      (')' :: [' ', '=', '>', ' ', '\x7b']))) ++ '\n' :: ((joinWith "\n" lines).toList ++
        ['\n', '\x7d']) := by
    simp [arrowText]
  have htokens : arrowTokens params xs = (symbolLexeme .lparen :: (nameTokens params ++
      [symbolLexeme .rparen, symbolLexeme .arrow, symbolLexeme .lbrace])) ++
        (xs ++ [symbolLexeme .rbrace]) := by
    simp [arrowTokens]
  rw [htext, htokens]
  exact hall

theorem parseFunction_arrowText {params lines : List String} {ss : List Stmt}
    (hparams : ∀ name ∈ params, IsPlainName name)
    (hlines : Lexes (joinWith "\n" lines).toList xs)
    (hstmts : DerivesStmts ss xs [symbolLexeme .rbrace, .eof]) :
    parseFunction (arrowText params lines) = .ok ⟨params, ss⟩ := by
  obtain ⟨ts, htokens, hmap⟩ := tokens_of_lexes (lexes_arrowText hparams hlines)
  exact parseFunction_of_tokens htokens hmap hstmts

/-- Whether statements end with the word `return` and nothing behind it. -/
def endsWithReturn (text : String) : Bool :=
  match tokens text, parseStatements text with
  | .ok ts, .ok ss =>
    match ss.getLast?, ts.dropLast.getLast? with
    | some (.ret none), some t => t.kind = .keyword .kwReturn
    | _, _ => false
  | _, _ => false

theorem not_endsOpen {text : String} {ts : List Token} {ss : List Stmt} (h : endsWithReturn text = false)
    (htokens : tokens text = .ok ts) (hmap : ts.map Token.lexeme = xs ++ [.eof])
    (hparse : parseStatements text = .ok ss) : ¬ EndsOpen ss xs := by
  rintro ⟨hss, x, hxs, hx⟩
  have hinit : ts.dropLast.map Token.lexeme = xs := by
    rw [List.map_dropLast, hmap, List.dropLast_concat]
  rw [← hinit, List.getLast?_map, Option.map_eq_some_iff] at hxs
  obtain ⟨t, ht, rfl⟩ := hxs
  rw [endsWithReturn, htokens, hparse] at h
  dsimp only at h
  rw [hss, ht] at h
  exact of_decide_eq_false h hx

/-- A line in front of the closing brace. -/
theorem parseFunction_line {params : List String} {line : String} {st : Stmt}
    (hparams : ∀ name ∈ params, IsPlainName name) (hline : IsLastLine line st) :
    parseFunction (arrowText params [line]) = .ok ⟨params, [st]⟩ := by
  obtain ⟨xs, hlexes, -, hstmts⟩ := hline
  exact parseFunction_arrowText hparams hlexes hstmts

/-- Statements and a line in front of the closing brace. -/
theorem parseFunction_body_line {params : List String} {text line : String} {ss : List Stmt}
    {st : Stmt} (hparams : ∀ name ∈ params, IsPlainName name) (hparse : parseStatements text = .ok ss)
    (hreturn : endsWithReturn text = false) (hline : IsLastLine line st) :
    parseFunction (arrowText params [text, line]) = .ok ⟨params, ss ++ [st]⟩ := by
  obtain ⟨us, ts, htokens, hmap, hbody⟩ := derives_parseStatements hparse
  obtain ⟨xs, hlexes, hfront, hlast⟩ := hline
  have hne : xs ≠ [] := by
    rintro rfl
    rcases hfront with h | h <;> cases h
  have hbehind : DerivesStmts ss us (xs ++ [symbolLexeme .rbrace, .eof]) := hbody.behind
    (not_endsOpen hreturn htokens hmap hparse) (by rw [frontKind_append hne]; exact hfront)
  have hlines := (lexes_of_lex (lex_of_tokens htokens) hmap).append_break (by decide) (Or.inl rfl)
    (hlexes.skip (c := '\n') (by decide))
  refine parseFunction_arrowText hparams ?_ (hbehind.append hlast)
  rw [joinWith_cons_cons, String.toList_append, String.toList_append, List.append_assoc]
  exact hlines

end Script
end Vitrine
