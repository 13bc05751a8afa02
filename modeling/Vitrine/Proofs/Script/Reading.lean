import Vitrine.Proofs.Outcome
import Vitrine.Proofs.Script.Lexemes
import Vitrine.Script.Parser

/-!
# What the parser reads

One lemma for each way in which a function of the parser reads what stands in front of it, in terms
of what the functions that it calls read. Positions of tokens do not matter.
-/
namespace Vitrine
namespace Script

variable {α : Type}

/-- Tokens are read as a value, up to the rest behind them. -/
def Reads (f : (ts : List Token) → Except ParseError (Parsed α ts)) (xs : List Lexeme) (a : α)
    (ys : List Lexeme) : Prop :=
  ∀ ts, ts.map Token.lexeme = xs →
    ∃ rest h, f ts = .ok ⟨a, rest, h⟩ ∧ rest.map Token.lexeme = ys

/-- The same for what may read nothing. -/
def Skims (f : (ts : List Token) → Except ParseError (Followed α ts)) (xs : List Lexeme) (a : α)
    (ys : List Lexeme) : Prop :=
  ∀ ts, ts.map Token.lexeme = xs →
    ∃ rest h, f ts = .ok ⟨a, rest, h⟩ ∧ rest.map Token.lexeme = ys

variable {x : Lexeme} {xs ys zs : List Lexeme}

theorem map_lexeme_cons {ts : List Token} (h : ts.map Token.lexeme = x :: xs) :
    ∃ t rest, ts = t :: rest ∧ t.kind = x.kind ∧ t.text = x.text ∧ rest.map Token.lexeme = xs := by
  cases ts with
  | nil => cases h
  | cons t rest =>
    obtain ⟨ht, hrest⟩ := List.cons.inj h
    exact ⟨t, rest, rfl, congrArg Lexeme.kind ht, congrArg Lexeme.text ht, hrest⟩

/-! ## Symbols -/

theorem reads_token (x : Lexeme) (xs : List Lexeme) {ts : List Token}
    (h : ts.map Token.lexeme = x :: xs) :
    ∃ t rest hs, expectToken x.kind ts = .ok ⟨t, rest, hs⟩ ∧ rest.map Token.lexeme = xs := by
  obtain ⟨t, rest, rfl, hkind, -, hrest⟩ := map_lexeme_cons h
  refine ⟨t, rest, Nat.lt_succ_self _, ?_, hrest⟩
  rw [expectToken, if_pos hkind]

theorem skipSymbol_of_eq {s : Symbol} {ts : List Token} (h : ts.map Token.lexeme = x :: xs)
    (hx : x.kind = .symbol s) :
    ∃ rest hs, skipSymbol s ts = ⟨true, rest, hs⟩ ∧ rest.map Token.lexeme = xs := by
  obtain ⟨t, rest, rfl, hkind, -, hrest⟩ := map_lexeme_cons h
  refine ⟨rest, Nat.le_succ _, ?_, hrest⟩
  rw [skipSymbol, if_pos (hkind.trans hx)]

theorem skipSymbol_of_ne {s : Symbol} {ts : List Token} (h : ts.map Token.lexeme = xs)
    (hx : ∀ y ys, xs = y :: ys → y.kind ≠ .symbol s) : ∃ hs, skipSymbol s ts = ⟨false, ts, hs⟩ := by
  cases ts with
  | nil => exact ⟨Nat.le_refl _, rfl⟩
  | cons t rest =>
    have hkind : t.kind ≠ .symbol s := hx _ _ h.symm
    exact ⟨Nat.le_refl _, by rw [skipSymbol, if_neg hkind]⟩

theorem current_ne {kind : Kind} {ts : List Token} (h : ts.map Token.lexeme = xs)
    (heof : kind ≠ .eof) (hx : ∀ y ys, xs = y :: ys → y.kind ≠ kind) : (current ts).kind ≠ kind := by
  cases ts with
  | nil => exact heof.symm
  | cons t rest => exact hx _ _ h.symm

/-! ## Sequences -/

theorem reads_sequence {e : Expr} {es : List Expr} (h : Reads parseOne xs e ys)
    (hmore : Skims parseMore ys es zs) : Reads parseSequence xs (Expr.ofItems e es) zs := by
  intro ts hts
  obtain ⟨r, hr, heq, hmap⟩ := h ts hts
  obtain ⟨r', hr', heq', hmap'⟩ := hmore r hmap
  refine ⟨r', Nat.lt_of_le_of_lt hr' hr, ?_, hmap'⟩
  rw [parseSequence, heq, ok_bind]
  dsimp only
  rw [heq']
  rfl

theorem skims_no_more (h : ∀ y ys, xs = y :: ys → y.kind ≠ .symbol .comma) :
    Skims parseMore xs [] xs := by
  intro ts hts
  cases ts with
  | nil => exact ⟨[], Nat.le_refl _, by rw [parseMore], hts⟩
  | cons t rest =>
    have hkind : t.kind ≠ .symbol .comma := h _ _ hts.symm
    refine ⟨t :: rest, Nat.le_refl _, ?_, hts⟩
    rw [parseMore, if_neg hkind]

theorem skims_more {e : Expr} {es : List Expr} (hx : x.kind = .symbol .comma)
    (h : Reads parseOne xs e ys) (hmore : Skims parseMore ys es zs) :
    Skims parseMore (x :: xs) (e :: es) zs := by
  intro ts hts
  obtain ⟨t, rest, rfl, hkind, -, hrest⟩ := map_lexeme_cons hts
  obtain ⟨r, hr, heq, hmap⟩ := h rest hrest
  obtain ⟨r', hr', heq', hmap'⟩ := hmore r hmap
  refine ⟨r', by rw [List.length_cons]; omega, ?_, hmap'⟩
  rw [parseMore, if_pos (hkind.trans hx), heq, ok_bind]
  dsimp only
  rw [heq']
  rfl

theorem reads_one {e : Expr} (h : Reads (parseLevel 0) xs e ys)
    (hy : ∀ z zs, ys = z :: zs → z.kind ≠ .symbol .question) : Reads parseOne xs e ys := by
  intro ts hts
  obtain ⟨r, hr, heq, hmap⟩ := h ts hts
  obtain ⟨hs, hskip⟩ := skipSymbol_of_ne (s := .question) hmap hy
  refine ⟨r, hr, ?_, hmap⟩
  rw [parseOne, heq, ok_bind]
  dsimp only
  rw [hskip]
  rfl

theorem reads_conditional {c t e : Expr} {mark colon : Lexeme} {ws : List Lexeme}
    (h : Reads (parseLevel 0) xs c (mark :: ys)) (hmark : mark.kind = .symbol .question)
    (ht : Reads parseOne ys t (colon :: zs)) (hcolon : colon.kind = .symbol .colon)
    (he : Reads parseOne zs e ws) : Reads parseOne xs (.conditional c t e) ws := by
  intro ts hts
  obtain ⟨r, hr, heq, hmap⟩ := h ts hts
  obtain ⟨r', hs, hskip, hmap'⟩ := skipSymbol_of_eq hmap hmark
  obtain ⟨r₂, hr₂, heq₂, hmap₂⟩ := ht r' hmap'
  obtain ⟨tok', r₃, hs₃, heq₃, hmap₃⟩ := reads_token colon zs hmap₂
  obtain ⟨r₄, hr₄, heq₄, hmap₄⟩ := he r₃ hmap₃
  refine ⟨r₄, by omega, ?_, hmap₄⟩
  rw [hcolon] at heq₃
  rw [parseOne, heq, ok_bind]
  dsimp only
  rw [hskip]
  dsimp only
  rw [if_pos rfl, heq₂, ok_bind]
  dsimp only
  rw [heq₃, ok_bind]
  dsimp only
  rw [heq₄]
  rfl

/-! ## Levels of operators -/

theorem operatorAt_eof (n : Nat) : operatorAt n .eof = none := by
  rw [operatorAt.eq_def]
  split <;> first | rfl | (rename_i hkind; cases hkind)

theorem reads_level {n : Nat} {left e : Expr} (hn : n < 6)
    (h : Reads (parseLevel (n + 1)) xs left ys) (hchain : Skims (parseChain n left) ys e zs) :
    Reads (parseLevel n) xs e zs := by
  intro ts hts
  obtain ⟨r, hr, heq, hmap⟩ := h ts hts
  obtain ⟨r', hr', heq', hmap'⟩ := hchain r hmap
  refine ⟨r', Nat.lt_of_le_of_lt hr' hr, ?_, hmap'⟩
  rw [parseLevel, if_pos hn, heq, ok_bind]
  dsimp only
  rw [heq']
  rfl

theorem reads_last_level {n : Nat} {e : Expr} (hn : ¬ n < 6) (h : Reads parseUnary xs e ys) :
    Reads (parseLevel n) xs e ys := by
  intro ts hts
  rw [parseLevel, if_neg hn]
  exact h ts hts

theorem skims_chain_end {n : Nat} {left : Expr}
    (h : ∀ y ys, xs = y :: ys → operatorAt n y.kind = none) : Skims (parseChain n left) xs left xs := by
  intro ts hts
  cases ts with
  | nil => exact ⟨[], Nat.le_refl _, by rw [parseChain], hts⟩
  | cons t rest =>
    have hkind : operatorAt n t.kind = none := h _ _ hts.symm
    refine ⟨t :: rest, Nat.le_refl _, ?_, hts⟩
    rw [parseChain, hkind]

theorem skims_chain {n : Nat} {op : BinaryOp} {left right e : Expr}
    (hx : operatorAt n x.kind = some op) (h : Reads (parseLevel (n + 1)) xs right ys)
    (hchain : Skims (parseChain n (.binary op left right)) ys e zs) :
    Skims (parseChain n left) (x :: xs) e zs := by
  intro ts hts
  obtain ⟨t, rest, rfl, hkind, -, hrest⟩ := map_lexeme_cons hts
  obtain ⟨r, hr, heq, hmap⟩ := h rest hrest
  obtain ⟨r', hr', heq', hmap'⟩ := hchain r hmap
  refine ⟨r', by rw [List.length_cons]; omega, ?_, hmap'⟩
  rw [parseChain, hkind, hx]
  dsimp only
  rw [heq, ok_bind]
  dsimp only
  rw [heq']
  rfl

theorem reads_unary {op : UnaryOp} {e : Expr} (hx : unaryOperator x.kind = some op)
    (h : Reads parseUnary xs e ys) : Reads parseUnary (x :: xs) (.unary op e) ys := by
  intro ts hts
  obtain ⟨t, rest, rfl, hkind, -, hrest⟩ := map_lexeme_cons hts
  obtain ⟨r, hr, heq, hmap⟩ := h rest hrest
  refine ⟨r, by rw [List.length_cons]; omega, ?_, hmap⟩
  rw [parseUnary, hkind, hx]
  dsimp only
  rw [heq]
  rfl

theorem reads_no_unary {e : Expr} (h : Reads parsePostfix xs e ys)
    (hx : ∀ y ys, xs = y :: ys → unaryOperator y.kind = none) : Reads parseUnary xs e ys := by
  intro ts hts
  cases ts with
  | nil =>
    rw [parseUnary]
    exact h [] hts
  | cons t rest =>
    have hkind : unaryOperator t.kind = none := hx _ _ hts.symm
    rw [parseUnary, hkind]
    exact h (t :: rest) hts

/-! ## Accesses and calls -/

theorem reads_postfix {target e : Expr} (h : Reads parsePrimary xs target ys)
    (hall : Skims (parseAccesses target) ys e zs) : Reads parsePostfix xs e zs := by
  intro ts hts
  obtain ⟨r, hr, heq, hmap⟩ := h ts hts
  obtain ⟨r', hr', heq', hmap'⟩ := hall r hmap
  refine ⟨r', Nat.lt_of_le_of_lt hr' hr, ?_, hmap'⟩
  rw [parsePostfix, heq, ok_bind]
  dsimp only
  rw [heq']
  rfl

/-- The tokens that continue an expression with an access or a call. -/
def accesses (kind : Kind) : Bool :=
  kind = .symbol .dot || kind = .symbol .lbracket || kind = .symbol .lparen

theorem skims_accesses_end {target : Expr} (h : ∀ y ys, xs = y :: ys → accesses y.kind = false) :
    Skims (parseAccesses target) xs target xs := by
  intro ts hts
  cases ts with
  | nil => exact ⟨[], Nat.le_refl _, by rw [parseAccesses], hts⟩
  | cons t rest =>
    have hkind : accesses t.kind = false := h _ _ hts.symm
    refine ⟨t :: rest, Nat.le_refl _, ?_, hts⟩
    rw [parseAccesses.eq_def]
    dsimp only
    split
    · next hdot =>
      rw [hdot] at hkind
      cases hkind
    · next hbracket =>
      rw [hbracket] at hkind
      cases hkind
    · next hparen =>
      rw [hparen] at hkind
      cases hkind
    · rfl

theorem skims_member {target e : Expr} {name : Lexeme} (hx : x.kind = .symbol .dot)
    (hname : ∀ t : Token, t.lexeme = name → namesProperty t = true) (hin : name.kind ≠ .eof)
    (h : Skims (parseAccesses (.member target name.text)) xs e ys) :
    Skims (parseAccesses target) (x :: name :: xs) e ys := by
  intro ts hts
  obtain ⟨t, rest, rfl, hkind, -, hrest⟩ := map_lexeme_cons hts
  obtain ⟨t', after, rfl, hkind', htext, hafter⟩ := map_lexeme_cons hrest
  have hnames : namesProperty t' = true := hname t' (List.cons.inj hrest).1
  have hbeyond : beyond t' after = after := if_neg (by rw [hkind']; exact hin)
  obtain ⟨r, hr, heq, hmap⟩ := h (beyond t' after) (by rw [hbeyond]; exact hafter)
  have hlen := beyond_noLonger t' after
  refine ⟨r, by rw [List.length_cons, List.length_cons]; omega, ?_, hmap⟩
  rw [parseAccesses.eq_def]
  dsimp only
  rw [hkind, hx]
  dsimp only
  rw [if_pos hnames, htext, heq]
  rfl

theorem skims_index {target index e : Expr} {close : Lexeme} (hx : x.kind = .symbol .lbracket)
    (h : Reads parseSequence xs index (close :: ys)) (hclose : close.kind = .symbol .rbracket)
    (hall : Skims (parseAccesses (.index target index)) ys e zs) :
    Skims (parseAccesses target) (x :: xs) e zs := by
  intro ts hts
  obtain ⟨t, rest, rfl, hkind, -, hrest⟩ := map_lexeme_cons hts
  obtain ⟨r, hr, heq, hmap⟩ := h rest hrest
  obtain ⟨t', r', hr', heq', hmap'⟩ := reads_token close ys hmap
  obtain ⟨r'', hr'', heq'', hmap''⟩ := hall r' hmap'
  rw [hclose] at heq'
  refine ⟨r'', by rw [List.length_cons]; omega, ?_, hmap''⟩
  rw [parseAccesses.eq_def]
  dsimp only
  rw [hkind, hx]
  dsimp only
  rw [heq, ok_bind]
  dsimp only
  rw [heq', ok_bind]
  dsimp only
  rw [heq'']
  rfl

theorem skims_call {target e : Expr} {args : List Expr} (hx : x.kind = .symbol .lparen)
    (h : Reads parseArgs xs args ys) (hall : Skims (parseAccesses (.call target args)) ys e zs) :
    Skims (parseAccesses target) (x :: xs) e zs := by
  intro ts hts
  obtain ⟨t, rest, rfl, hkind, -, hrest⟩ := map_lexeme_cons hts
  obtain ⟨r, hr, heq, hmap⟩ := h rest hrest
  obtain ⟨r', hr', heq', hmap'⟩ := hall r hmap
  refine ⟨r', by rw [List.length_cons]; omega, ?_, hmap'⟩
  rw [parseAccesses.eq_def]
  dsimp only
  rw [hkind, hx]
  dsimp only
  rw [heq, ok_bind]
  dsimp only
  rw [heq']
  rfl

theorem reads_no_args (hx : x.kind = .symbol .rparen) : Reads parseArgs (x :: xs) [] xs := by
  intro ts hts
  obtain ⟨t, rest, rfl, hkind, -, hrest⟩ := map_lexeme_cons hts
  have hskip : (skipSymbol .rparen (t :: rest)).rest = rest := by
    rw [skipSymbol, if_pos (hkind.trans hx)]
  have hshort : (skipSymbol .rparen (t :: rest)).rest.length < (t :: rest).length := by
    rw [hskip]
    exact Nat.lt_succ_self _
  refine ⟨rest, Nat.lt_succ_self _, ?_, hrest⟩
  rw [parseArgs]
  dsimp only
  rw [dif_pos hshort]
  simp only [hskip]
  rfl

theorem reads_args {e : Expr} {es : List Expr} {close : Lexeme}
    (hx : ∀ y ys, xs = y :: ys → y.kind ≠ .symbol .rparen) (h : Reads parseOne xs e ys)
    (hmore : Skims parseMore ys es (close :: zs)) (hclose : close.kind = .symbol .rparen) :
    Reads parseArgs xs (e :: es) zs := by
  intro ts hts
  obtain ⟨r, hr, heq, hmap⟩ := h ts hts
  obtain ⟨r', hr', heq', hmap'⟩ := hmore r hmap
  obtain ⟨t, r'', hr'', heq'', hmap''⟩ := reads_token close zs hmap'
  have hlong : ¬ (skipSymbol .rparen ts).rest.length < ts.length := by
    obtain ⟨hs, hskip⟩ := skipSymbol_of_ne (s := .rparen) hts hx
    rw [hskip]
    exact Nat.lt_irrefl _
  rw [hclose] at heq''
  refine ⟨r'', by omega, ?_, hmap''⟩
  rw [parseArgs]
  dsimp only
  rw [dif_neg hlong, heq, ok_bind]
  dsimp only
  rw [heq', ok_bind]
  dsimp only
  rw [heq'']
  rfl

/-! ## Operands -/

theorem reads_literal {e : Expr} (h : ∀ t : Token, t.lexeme = x → literalOf? t = some (.ok e)) :
    Reads parsePrimary (x :: xs) e xs := by
  intro ts hts
  obtain ⟨t, rest, rfl, hkind, -, hrest⟩ := map_lexeme_cons hts
  have ht := h t (List.cons.inj hts).1
  refine ⟨rest, Nat.lt_succ_self _, ?_, hrest⟩
  rw [parsePrimary.eq_def]
  dsimp only
  have hne : ∀ k, literalOf? ⟨k, t.text, t.pos⟩ = none → t.kind ≠ k := by
    rintro k hk rfl
    rw [hk] at ht
    cases ht
  split
  · next hk => exact absurd hk (hne _ rfl)
  · next hk => exact absurd hk (hne _ rfl)
  · next hk => exact absurd hk (hne _ rfl)
  · next hk => exact absurd hk (hne _ rfl)
  · rw [ht]

theorem reads_parenthesised {e : Expr} {close : Lexeme} (hx : x.kind = .symbol .lparen)
    (h : Reads parseSequence xs e (close :: ys)) (hclose : close.kind = .symbol .rparen) :
    Reads parsePrimary (x :: xs) e ys := by
  intro ts hts
  obtain ⟨t, rest, rfl, hkind, -, hrest⟩ := map_lexeme_cons hts
  obtain ⟨r, hr, heq, hmap⟩ := h rest hrest
  obtain ⟨t', r', hr', heq', hmap'⟩ := reads_token close ys hmap
  rw [hclose] at heq'
  refine ⟨r', by rw [List.length_cons]; omega, ?_, hmap'⟩
  rw [parsePrimary.eq_def]
  dsimp only
  rw [hkind, hx]
  dsimp only
  rw [heq, ok_bind]
  dsimp only
  rw [heq']
  rfl

theorem reads_array {es : List Expr} {close : Lexeme} (hx : x.kind = .symbol .lbracket)
    (h : Skims parseItems xs es (close :: ys)) (hclose : close.kind = .symbol .rbracket) :
    Reads parsePrimary (x :: xs) (.array es) ys := by
  intro ts hts
  obtain ⟨t, rest, rfl, hkind, -, hrest⟩ := map_lexeme_cons hts
  obtain ⟨r, hr, heq, hmap⟩ := h rest hrest
  obtain ⟨t', r', hr', heq', hmap'⟩ := reads_token close ys hmap
  rw [hclose] at heq'
  refine ⟨r', by rw [List.length_cons]; omega, ?_, hmap'⟩
  rw [parsePrimary.eq_def]
  dsimp only
  rw [hkind, hx]
  dsimp only
  rw [heq, ok_bind]
  dsimp only
  rw [heq']
  rfl

theorem reads_object {entries : List (String × Expr)} {close : Lexeme}
    (hx : x.kind = .symbol .lbrace) (h : Skims parseEntries xs entries (close :: ys))
    (hclose : close.kind = .symbol .rbrace) : Reads parsePrimary (x :: xs) (.object entries) ys := by
  intro ts hts
  obtain ⟨t, rest, rfl, hkind, -, hrest⟩ := map_lexeme_cons hts
  obtain ⟨r, hr, heq, hmap⟩ := h rest hrest
  obtain ⟨t', r', hr', heq', hmap'⟩ := reads_token close ys hmap
  rw [hclose] at heq'
  refine ⟨r', by rw [List.length_cons]; omega, ?_, hmap'⟩
  rw [parsePrimary.eq_def]
  dsimp only
  rw [hkind, hx]
  dsimp only
  rw [heq, ok_bind]
  dsimp only
  rw [heq']
  rfl

theorem reads_new {e : Expr} (hx : x.kind = .keyword .kwNew) (h : Reads parsePostfix xs e ys) :
    Reads parsePrimary (x :: xs) e ys := by
  intro ts hts
  obtain ⟨t, rest, rfl, hkind, -, hrest⟩ := map_lexeme_cons hts
  obtain ⟨r, hr, heq, hmap⟩ := h rest hrest
  refine ⟨r, by rw [List.length_cons]; omega, ?_, hmap⟩
  rw [parsePrimary.eq_def]
  dsimp only
  rw [hkind, hx]
  dsimp only
  rw [heq]
  rfl

theorem skims_no_items (hx : x.kind = .symbol .rbracket) :
    Skims parseItems (x :: xs) [] (x :: xs) := by
  intro ts hts
  obtain ⟨t, rest, rfl, hkind, -, hrest⟩ := map_lexeme_cons hts
  refine ⟨t :: rest, Nat.le_refl _, ?_, hts⟩
  rw [parseItems, current, if_pos (hkind.trans hx)]
  rfl

theorem skims_last_item {e : Expr} (hx : ∀ y ys, xs = y :: ys → y.kind ≠ .symbol .rbracket)
    (h : Reads parseOne xs e ys) (hy : ∀ z zs, ys = z :: zs → z.kind ≠ .symbol .comma) :
    Skims parseItems xs [e] ys := by
  intro ts hts
  obtain ⟨r, hr, heq, hmap⟩ := h ts hts
  obtain ⟨hs, hskip⟩ := skipSymbol_of_ne (s := .comma) hmap hy
  refine ⟨r, Nat.le_of_lt hr, ?_, hmap⟩
  rw [parseItems, if_neg (current_ne hts (by decide) hx), heq, ok_bind]
  dsimp only
  rw [hskip]
  rfl

theorem skims_item {e : Expr} {es : List Expr} {comma : Lexeme}
    (hx : ∀ y ys, xs = y :: ys → y.kind ≠ .symbol .rbracket)
    (h : Reads parseOne xs e (comma :: ys)) (hcomma : comma.kind = .symbol .comma)
    (hmore : Skims parseItems ys es zs) : Skims parseItems xs (e :: es) zs := by
  intro ts hts
  obtain ⟨r, hr, heq, hmap⟩ := h ts hts
  obtain ⟨r', hs, hskip, hmap'⟩ := skipSymbol_of_eq hmap hcomma
  obtain ⟨r'', hr'', heq'', hmap''⟩ := hmore r' hmap'
  refine ⟨r'', by omega, ?_, hmap''⟩
  rw [parseItems, if_neg (current_ne hts (by decide) hx), heq, ok_bind]
  dsimp only
  rw [hskip]
  dsimp only
  rw [if_pos rfl, heq'']
  rfl

/-! ## Entries of objects -/

/-- The value of an entry behind its key. -/
def parseEntry (key : Token) (rest : List Token) : Except ParseError (Followed Expr rest) := do
  let ⟨valued, afterColon, hcolon⟩ := skipSymbol .colon rest
  if valued then do
    let value ← parseOne afterColon
    pure ⟨value.value, value.rest, value.noLonger_of_le hcolon⟩
  else if key.kind = .ident then pure ⟨.ident key.text, rest, noLonger_refl rest⟩
  else .error (.missingColon key)

/-- The kinds of tokens that are keys of entries. -/
def IsKey (kind : Kind) : Prop := kind = .ident ∨ kind = .string ∨ kind = .int

theorem parseEntries_cons {key : Token} {rest : List Token} (hkey : IsKey key.kind) :
    parseEntries (key :: rest) = (do
      let entry ← parseEntry key rest
      let ⟨continues, afterComma, hcomma⟩ := skipSymbol .comma entry.rest
      if continues then
        let others ← parseEntries afterComma
        return ⟨(key.text, entry.value) :: others.value, others.rest,
          Nat.le_succ_of_le (others.noLonger.trans (hcomma.trans entry.noLonger))⟩
      else return ⟨[(key.text, entry.value)], entry.rest, Nat.le_succ_of_le entry.noLonger⟩) := by
  have hbrace : key.kind ≠ .symbol .rbrace := by
    rcases hkey with h | h | h <;> rw [h] <;> decide
  have hguard : ¬ (decide (key.kind ≠ .ident) && decide (key.kind ≠ .string) &&
      decide (key.kind ≠ .int)) = true := by
    rcases hkey with h | h | h <;> rw [h] <;> decide
  rw [parseEntries.eq_def]
  dsimp only
  rw [if_neg hbrace, if_neg hguard, parseEntry]
  dsimp only
  split
  · cases parseOne (skipSymbol .colon rest).rest with
    | error e => rfl
    | ok value => rfl
  · split
    · rfl
    · rfl

theorem skims_no_entries (hx : x.kind = .symbol .rbrace) :
    Skims parseEntries (x :: xs) [] (x :: xs) := by
  intro ts hts
  obtain ⟨t, rest, rfl, hkind, -, hrest⟩ := map_lexeme_cons hts
  refine ⟨t :: rest, Nat.le_refl _, ?_, hts⟩
  rw [parseEntries.eq_def]
  dsimp only
  rw [if_pos (hkind.trans hx)]

theorem skims_last_entry {key : Lexeme} {e : Expr} (hkey : IsKey key.kind)
    (h : ∀ t : Token, t.lexeme = key → Skims (parseEntry t) xs e ys)
    (hy : ∀ z zs, ys = z :: zs → z.kind ≠ .symbol .comma) :
    Skims parseEntries (key :: xs) [(key.text, e)] ys := by
  intro ts hts
  obtain ⟨t, rest, rfl, hkind, htext, hrest⟩ := map_lexeme_cons hts
  obtain ⟨r, hr, heq, hmap⟩ := h t (List.cons.inj hts).1 rest hrest
  obtain ⟨hs, hskip⟩ := skipSymbol_of_ne (s := .comma) hmap hy
  refine ⟨r, Nat.le_succ_of_le hr, ?_, hmap⟩
  rw [parseEntries_cons (hkind ▸ hkey), heq, ok_bind]
  dsimp only
  rw [hskip, ← htext]
  rfl

theorem skims_entry {key comma : Lexeme} {e : Expr} {entries : List (String × Expr)}
    (hkey : IsKey key.kind)
    (h : ∀ t : Token, t.lexeme = key → Skims (parseEntry t) xs e (comma :: ys))
    (hcomma : comma.kind = .symbol .comma) (hmore : Skims parseEntries ys entries zs) :
    Skims parseEntries (key :: xs) ((key.text, e) :: entries) zs := by
  intro ts hts
  obtain ⟨t, rest, rfl, hkind, htext, hrest⟩ := map_lexeme_cons hts
  obtain ⟨r, hr, heq, hmap⟩ := h t (List.cons.inj hts).1 rest hrest
  obtain ⟨r', hs, hskip, hmap'⟩ := skipSymbol_of_eq hmap hcomma
  obtain ⟨r'', hr'', heq'', hmap''⟩ := hmore r' hmap'
  refine ⟨r'', by rw [List.length_cons]; omega, ?_, hmap''⟩
  rw [parseEntries_cons (hkind ▸ hkey), heq, ok_bind]
  dsimp only
  rw [hskip]
  dsimp only
  rw [if_pos rfl, heq'', ← htext]
  rfl

theorem skims_value {key : Token} {e : Expr} (hx : x.kind = .symbol .colon)
    (h : Reads parseOne xs e ys) : Skims (parseEntry key) (x :: xs) e ys := by
  intro ts hts
  obtain ⟨r', hs, hskip, hmap'⟩ := skipSymbol_of_eq hts hx
  obtain ⟨r, hr, heq, hmap⟩ := h r' hmap'
  refine ⟨r, by omega, ?_, hmap⟩
  rw [parseEntry, hskip]
  dsimp only
  rw [if_pos rfl, heq]
  rfl

theorem skims_shorthand {key : Token} (hkey : key.kind = .ident)
    (hx : ∀ y ys, xs = y :: ys → y.kind ≠ .symbol .colon) :
    Skims (parseEntry key) xs (.ident key.text) xs := by
  intro ts hts
  obtain ⟨hs, hskip⟩ := skipSymbol_of_ne (s := .colon) hts hx
  refine ⟨ts, Nat.le_refl _, ?_, hts⟩
  rw [parseEntry, hskip]
  dsimp only
  rw [if_neg Bool.false_ne_true, if_pos hkey]
  rfl

end Script
end Vitrine
