import Vitrine.Proofs.Script.Spans
import Vitrine.Proofs.Script.Texts

/-!
# The productions of the grammar

The grammar of expressions, production by production (`rule`), and what the parser takes beyond it: a
string that begins like a name as the name of a property, and several expressions as an index. The
tokens of every text that is an expression are derived in it, with only those of these two liberties
that they show signs of (`parseExpr_matches`).
-/
namespace Vitrine
namespace Script

variable {x y : Lexeme} {xs ys zs : List Lexeme} {e : Expr}

/-! ## Productions -/

/-- What the grammar has productions for. -/
inductive Part where
  | sequence | expr | orExpr | andExpr | equality | relational | addition | multiply
  | unary | suffixed | property | index | primary | literal | args | array | object | entry

/-- The right side of a production. -/
inductive Pattern where
  | token (p : Lexeme → Bool)
  | part (p : Part)
  | both (a b : Pattern)
  | either (a b : Pattern)
  | option (a : Pattern)
  | many (a : Pattern)

namespace Pattern

instance : Append Pattern := ⟨both⟩

instance : OrOp Pattern := ⟨either⟩

/-- A token of one of some kinds. -/
def kinds (ks : List Kind) : Pattern := token fun x => ks.contains x.kind

def symbol (s : Symbol) : Pattern := kinds [.symbol s]

/-- Operands of a level with one of its operators between each two. -/
def chain (operators : List Symbol) (operand : Part) : Pattern :=
  part operand ++ many (kinds (operators.map .symbol) ++ part operand)

/-- One or more of the same with commas between them. -/
def list (p : Part) : Pattern := part p ++ many (symbol .comma ++ part p)

/-- A list that may be empty; a comma may stand behind its last item. -/
def items (p : Part) : Pattern := option (list p ++ option (symbol .comma))

/-- A property, an index or arguments. -/
def access : Pattern :=
  symbol .dot ++ part .property ||| symbol .lbracket ++ part .index ++ symbol .rbracket |||
    symbol .lparen ++ part .args ++ symbol .rparen

end Pattern

/-- What the parser takes beyond the grammar. -/
structure Liberties where
  /-- A string as the name of a property. -/
  quotedNames : Bool
  /-- Several expressions as an index. -/
  listIndices : Bool

def Liberties.none : Liberties := ⟨false, false⟩

def Liberties.all : Liberties := ⟨true, true⟩

def Lexeme.isWord (x : Lexeme) : Bool :=
  match x.kind with
  | .ident | .keyword _ => true
  | _ => false

/-- The production of a part. -/
def rule (l : Liberties) : Part → Pattern :=
  open Pattern in fun
  | .sequence => list .expr
  | .expr => part .orExpr ++ option (symbol .question ++ part .expr ++ symbol .colon ++ part .expr)
  | .orExpr => chain [.or, .nullish] .andExpr
  | .andExpr => chain [.and] .equality
  | .equality => chain [.eq, .ne, .strictEq, .strictNe] .relational
  | .relational => chain [.lt, .gt, .le, .ge] .addition
  | .addition => chain [.plus, .minus] .multiply
  | .multiply => chain [.star, .slash, .percent] .unary
  | .unary =>
    kinds [.symbol .not, .symbol .minus, .symbol .plus, .keyword .kwTypeof] ++ part .unary |||
      part .suffixed
  | .suffixed => part .primary ++ many access
  | .property => token fun x => x.isWord || l.quotedNames && x.kind = .string && x.names
  | .index => if l.listIndices then part .sequence else part .expr
  | .primary =>
    part .literal ||| kinds [.ident] ||| kinds [.keyword .kwNew] ++ part .suffixed |||
      symbol .lparen ++ part .sequence ++ symbol .rparen ||| part .array ||| part .object
  | .literal =>
    kinds [.int, .float, .string, .keyword .kwTrue, .keyword .kwFalse, .keyword .kwNull,
      .keyword .kwUndefined]
  | .args => option (list .expr)
  | .array => symbol .lbracket ++ items .expr ++ symbol .rbracket
  | .object => symbol .lbrace ++ items .entry ++ symbol .rbrace
  | .entry => kinds [.ident, .string, .int] ++ option (symbol .colon ++ part .expr)

/-- The tokens that a pattern stands for. -/
inductive Matches (l : Liberties) : Pattern → List Lexeme → Prop
  | token {p : Lexeme → Bool} {x : Lexeme} (h : p x = true) : Matches l (.token p) [x]
  | part {p : Part} {xs : List Lexeme} (h : Matches l (rule l p) xs) : Matches l (.part p) xs
  | both {a b : Pattern} {xs ys : List Lexeme} (ha : Matches l a xs) (hb : Matches l b ys) :
      Matches l (a ++ b) (xs ++ ys)
  | left {a b : Pattern} {xs : List Lexeme} (h : Matches l a xs) : Matches l (a ||| b) xs
  | right {a b : Pattern} {xs : List Lexeme} (h : Matches l b xs) : Matches l (a ||| b) xs
  | absent {a : Pattern} : Matches l (.option a) []
  | present {a : Pattern} {xs : List Lexeme} (h : Matches l a xs) : Matches l (.option a) xs
  | done {a : Pattern} : Matches l (.many a) []
  | again {a : Pattern} {xs ys : List Lexeme} (h : Matches l a xs) (hall : Matches l (.many a) ys) :
      Matches l (.many a) (xs ++ ys)

section Matches

variable {l : Liberties} {a b c d : Pattern}

theorem matches_kinds {ks : List Kind} (h : x.kind ∈ ks) : Matches l (.kinds ks) [x] :=
  .token (List.contains_iff_mem.mpr h)

theorem matches_symbol {s : Symbol} (h : x.kind = .symbol s) : Matches l (.symbol s) [x] :=
  matches_kinds (List.mem_singleton.mpr h)

theorem Matches.cons (hx : Matches l a [x]) (h : Matches l b xs) : Matches l (a ++ b) (x :: xs) :=
  .both hx h

/-- Something between an opening and a closing token. -/
theorem Matches.enclosed (hx : Matches l a [x]) (h : Matches l b xs) (hy : Matches l c [y]) :
    Matches l (a ++ b ++ c) (x :: (xs ++ [y])) :=
  .both (.cons hx h) hy

theorem matches_key {l : Liberties} (h : IsKey x.kind) :
    Matches l (.kinds [.ident, .string, .int]) [x] := by
  refine matches_kinds ?_
  rcases h with h | h | h <;> simp [h]

theorem matches_both (h : Matches l (a ++ b) xs) :
    ∃ ys zs, xs = ys ++ zs ∧ Matches l a ys ∧ Matches l b zs := by
  cases h with
  | both ha hb => exact ⟨_, _, rfl, ha, hb⟩

theorem Matches.assoc (h : Matches l (a ++ (b ++ c)) xs) : Matches l (a ++ b ++ c) xs := by
  obtain ⟨ys, zs, rfl, ha, hbc⟩ := matches_both h
  obtain ⟨us, vs, rfl, hb, hc⟩ := matches_both hbc
  rw [← List.append_assoc]
  exact .both (.both ha hb) hc

/-- An item in front of a list, which takes its comma as the trailing one if it is empty. -/
theorem Matches.items_cons {p : Part} (h : Matches l (.part p) xs) (hx : x.kind = .symbol .comma)
    (hmore : Matches l (.items p) ys) : Matches l (.items p) (xs ++ x :: ys) := by
  cases hmore with
  | absent =>
    have hlist : Matches l (.list p) (xs ++ []) := .both h .done
    rw [List.append_nil] at hlist
    exact .present (.both hlist (.present (matches_symbol hx)))
  | present hmore =>
    obtain ⟨zs, trailing, rfl, hzs, htrailing⟩ := matches_both hmore
    obtain ⟨first, others, rfl, hfirst, hothers⟩ := matches_both hzs
    have hlist : Matches l (.list p) (xs ++ ((x :: first) ++ others)) :=
      .both h (.again (.cons (matches_symbol hx) hfirst) hothers)
    have hitems := Matches.present (.both hlist htrailing)
    rwa [List.append_assoc] at hitems

theorem Matches.items_singleton {p : Part} (h : Matches l (.part p) xs) :
    Matches l (.items p) xs := by
  have hlist : Matches l (.list p) (xs ++ []) := .both h .done
  have hitems : Matches l (.items p) (xs ++ [] ++ []) := .present (.both hlist .absent)
  rwa [List.append_nil, List.append_nil] at hitems

end Matches

/-! ## Levels -/

def levelPart : Nat → Part
  | 0 => .orExpr
  | 1 => .andExpr
  | 2 => .equality
  | 3 => .relational
  | 4 => .addition
  | 5 => .multiply
  | _ => .unary

def levelOperators : Nat → List Symbol
  | 0 => [.or, .nullish]
  | 1 => [.and]
  | 2 => [.eq, .ne, .strictEq, .strictNe]
  | 3 => [.lt, .gt, .le, .ge]
  | 4 => [.plus, .minus]
  | 5 => [.star, .slash, .percent]
  | _ => []

theorem rule_levelPart {n : Nat} (h : n < 6) (l : Liberties) :
    rule l (levelPart n) = .chain (levelOperators n) (levelPart (n + 1)) := by
  match n with
  | 0 | 1 | 2 | 3 | 4 | 5 => rfl

theorem mem_levelOperators {n : Nat} {kind : Kind} {op : BinaryOp}
    (h : operatorAt n kind = some op) : kind ∈ (levelOperators n).map .symbol := by
  rw [operatorAt.eq_def] at h
  split at h <;> first | decide | cases h

theorem mem_unaryOperators {kind : Kind} {op : UnaryOp} (h : unaryOperator kind = some op) :
    kind ∈ [.symbol .not, .symbol .minus, .symbol .plus, .keyword .kwTypeof] := by
  rw [unaryOperator.eq_def] at h
  split at h <;> first | decide | cases h

/-! ## Signs of liberties -/

/-- The tokens that an operand ends with. -/
inductive EndsOperand : List Lexeme → Prop
  | token {x : Lexeme} (h : x.kind ∈ [.ident, .int, .float, .string, .keyword .kwTrue,
      .keyword .kwFalse, .keyword .kwNull, .keyword .kwUndefined, .symbol .rparen,
      .symbol .rbracket, .symbol .rbrace]) : EndsOperand [x]
  | property {x y : Lexeme} (h : x.kind = .symbol .dot) : EndsOperand [x, y]

/-- A string directly behind a dot. -/
def QuotesName (xs : List Lexeme) : Prop :=
  ∃ x y, [x, y] <:+: xs ∧ x.kind = .symbol .dot ∧ y.kind = .string

/-- An expression and a comma. -/
def StartsList (xs : List Lexeme) : Prop :=
  ∃ inner y more, xs = inner ++ y :: more ∧ Matches .all (.part .expr) inner ∧
    y.kind = .symbol .comma

/-- A bracket behind an operand, and in it an expression and a comma. -/
def ListsIndex (xs : List Lexeme) : Prop :=
  ∃ o x more, o ++ x :: more <:+: xs ∧ EndsOperand o ∧ x.kind = .symbol .lbracket ∧ StartsList more

/-- The liberties that tokens show signs of. -/
structure Liberties.Cover (l : Liberties) (xs : List Lexeme) : Prop where
  quotedNames : QuotesName xs → l.quotedNames = true
  listIndices : ListsIndex xs → l.listIndices = true

theorem Liberties.Cover.of_part {l : Liberties} (h : l.Cover xs) (hys : ys <:+: xs) :
    l.Cover ys where
  quotedNames := fun ⟨x, y, hxy, hsigns⟩ => h.quotedNames ⟨x, y, hxy.trans hys, hsigns⟩
  listIndices := fun ⟨o, x, more, ho, hsigns⟩ => h.listIndices ⟨o, x, more, ho.trans hys, hsigns⟩

theorem cover_all (xs : List Lexeme) : Liberties.all.Cover xs := ⟨fun _ => rfl, fun _ => rfl⟩

/-! ## Derivations -/

/-- A token whose text begins like a name is a word or a string. -/
def Lexeme.IsNamed (x : Lexeme) : Prop := x.names = true → x.isWord = true ∨ x.kind = .string

def Liberties.Admits (l : Liberties) (xs : List Lexeme) : Prop :=
  (∀ x ∈ xs, x.IsNamed) ∧ l.Cover xs

theorem Liberties.Admits.of_part {l : Liberties} (h : l.Admits xs) (hys : ys <:+: xs) :
    l.Admits ys :=
  ⟨fun x hx => h.1 x (hys.subset hx), h.2.of_part hys⟩

/-- What the tokens of a phrase are in the grammar. Accesses are looked at with the end of the operand
in front of them, which tells the bracket of an index from that of an array. -/
def Phrase.Fits (p : Phrase) (l : Liberties) (xs : List Lexeme) : Prop :=
  match p with
  | .sequence _ => Matches l (.part .sequence) xs ∧ (Matches l (.part .expr) xs ∨ StartsList xs)
  | .more _ => Matches l (.many (.symbol .comma ++ .part .expr)) xs
  | .one _ => Matches l (.part .expr) xs
  | .level n _ => Matches l (.part (levelPart n)) xs
  | .chain n _ _ => Matches l
      (.many (.kinds ((levelOperators n).map .symbol) ++ .part (levelPart (n + 1)))) xs
  | .unary _ => Matches l (.part .unary) xs
  | .suffixed _ => Matches l (.part .suffixed) xs
  | .accesses _ _ => ∀ o, EndsOperand o → l.Admits (o ++ xs) → Matches l (.many .access) xs
  | .args _ => Matches l (.part .args ++ .symbol .rparen) xs
  | .primary _ => Matches l (.part .primary) xs
  | .items _ => Matches l (.items .expr) xs
  | .entry _ _ => Matches l (.option (.symbol .colon ++ .part .expr)) xs
  | .entries _ => Matches l (.items .entry) xs

theorem kind_of_literal (h : x.literal? = some (.ok e)) : x.kind = .ident ∨
    x.kind ∈ [.int, .float, .string, .keyword .kwTrue, .keyword .kwFalse, .keyword .kwNull,
      .keyword .kwUndefined] := by
  obtain ⟨kind, text⟩ := x
  rw [Lexeme.literal?, literalOf?] at h
  dsimp only at h ⊢
  split at h <;> first | decide | cases h

theorem Derives.ends_operand (h : Derives (.primary e) xs) :
    ∃ front o, xs = front ++ o ∧ EndsOperand o := by
  cases h with
  | @literal x _ hx =>
    refine ⟨[], [x], rfl, .token ?_⟩
    rcases kind_of_literal hx with hkind | hkind
    · simp [hkind]
    · simp at hkind ⊢
      tauto
  | parenthesised hx h hclose => exact ⟨_ :: _, [_], rfl, .token (by simp [hclose])⟩
  | array hx h hclose => exact ⟨_ :: _, [_], rfl, .token (by simp [hclose])⟩
  | object hx h hclose => exact ⟨_ :: _, [_], rfl, .token (by simp [hclose])⟩

theorem Derives.ends_args {es : List Expr} (h : Derives (.args es) xs) :
    ∃ front close, xs = front ++ [close] ∧ close.kind = .symbol .rparen := by
  cases h with
  | no_args hclose => exact ⟨[], _, rfl, hclose⟩
  | args _ _ hclose => exact ⟨_, _, (List.append_assoc ..).symm, hclose⟩

/-- What is derived is in the grammar, with the liberties that it shows signs of. -/
theorem Derives.fits {p : Phrase} (h : Derives p xs) (l : Liberties) (hl : l.Admits xs) :
    p.Fits l xs := by
  induction h generalizing l with
  | @sequence e es xs ys hone hmore ih ihmore =>
    have hfirst := ih l (hl.of_part ⟨[], ys, rfl⟩)
    refine ⟨.part (.both hfirst (ihmore l (hl.of_part ⟨xs, [], List.append_nil _⟩))), ?_⟩
    cases hmore with
    | no_more =>
      rw [List.append_nil]
      exact Or.inl hfirst
    | more hx =>
      have hall := ih .all ⟨fun x hx => hl.1 x (List.mem_append_left _ hx), cover_all xs⟩
      exact Or.inr ⟨xs, _, _, rfl, hall, hx⟩
  | no_more => exact .done
  | @more x e es xs ys hx _ _ ih ihmore =>
    have hone := ih l (hl.of_part ⟨[x], ys, rfl⟩)
    have hothers := ihmore l (hl.of_part ⟨x :: xs, [], by simp⟩)
    exact .again (.cons (matches_symbol hx) hone) hothers
  | one _ ih =>
    have hone := Matches.both (ih l hl)
      (.absent (a := .symbol .question ++ .part .expr ++ .symbol .colon ++ .part .expr))
    rw [List.append_nil] at hone
    exact .part hone
  | @conditional mark colon c t e xs ys zs _ hmark _ hcolon _ ihc iht ihe =>
    have hc := ihc l (hl.of_part ⟨[], _, rfl⟩)
    have ht := iht l (hl.of_part ⟨xs ++ [mark], colon :: zs, by simp⟩)
    have he := ihe l (hl.of_part ⟨xs ++ mark :: (ys ++ [colon]), [], by simp⟩)
    have hbranches := Matches.both (.enclosed (matches_symbol hmark) ht (matches_symbol hcolon)) he
    have hone := Matches.both hc (.present hbranches)
    rw [List.cons_append, List.append_assoc] at hone
    exact .part hone
  | @level n left e xs ys hn _ _ ih ihchain =>
    have hfirst := ih l (hl.of_part ⟨[], ys, rfl⟩)
    have hothers := ihchain l (hl.of_part ⟨xs, [], List.append_nil _⟩)
    refine .part ?_
    rw [rule_levelPart hn]
    exact .both hfirst hothers
  | last_level _ ih => exact ih l hl
  | chain_end => exact .done
  | @chain x n op left right e xs ys hx _ _ ih ihchain =>
    have hright := ih l (hl.of_part ⟨[x], ys, rfl⟩)
    have hothers := ihchain l (hl.of_part ⟨x :: xs, [], by simp⟩)
    exact .again (.cons (matches_kinds (mem_levelOperators hx)) hright) hothers
  | @unary x op e xs hx _ ih =>
    have hoperand := ih l (hl.of_part ⟨[x], [], by simp⟩)
    exact .part (.left (.cons (matches_kinds (mem_unaryOperators hx)) hoperand))
  | no_unary _ ih => exact .part (.right (ih l hl))
  | @suffixed target e xs ys hprimary _ ih ihall =>
    obtain ⟨front, o, rfl, ho⟩ := hprimary.ends_operand
    have hfirst := ih l (hl.of_part ⟨[], ys, rfl⟩)
    have hall := ihall l (hl.of_part ⟨front ++ o, [], List.append_nil _⟩) o ho
      (hl.of_part ⟨front, [], by simp⟩)
    exact .part (.both hfirst hall)
  | @construct x e xs hx _ ih =>
    have hinner := ih l (hl.of_part ⟨[x], [], by simp⟩)
    have hnew : Matches l (.part .primary) (x :: xs) :=
      .part (.left (.left (.left (.right (.cons (matches_kinds (by simp [hx])) hinner)))))
    have hall := Matches.both hnew (.done (a := .access))
    rw [List.append_nil] at hall
    exact .part hall
  | accesses_end => exact fun _ _ _ => .done
  | @member x name target e xs hx hname _ _ ih =>
    intro o ho hadmits
    have hproperty : Matches l (.part .property) [name] := by
      refine .part (.token ?_)
      rcases hl.1 name (by simp) hname with hword | hstring
      · simp [hword]
      · have hquoted := hl.2.quotedNames ⟨x, name, ⟨[], xs, rfl⟩, hx, hstring⟩
        simp [hquoted, hstring, hname]
    have hall := ih l (hl.of_part ⟨[x, name], [], by simp⟩) [x, name] (.property hx) hl
    exact .again (.left (.left (.cons (matches_symbol hx) hproperty))) hall
  | @index x close target key e xs ys hx _ hclose _ ih ihall =>
    intro o ho hadmits
    obtain ⟨hsequence, hexpr⟩ := ih l (hl.of_part ⟨[x], close :: ys, by simp⟩)
    have hkey : Matches l (.part .index) xs := by
      refine .part ?_
      rw [rule]
      split
      · exact hsequence
      · next hsingle =>
        refine hexpr.resolve_right fun ⟨inner, y, others, heq, hinner, hy⟩ => hsingle ?_
        exact hadmits.2.listIndices
          ⟨o, x, _, List.infix_rfl, ho, hx, inner, y, others ++ close :: ys, by simp [heq], hinner,
            hy⟩
    have hall := ihall l (hl.of_part ⟨x :: (xs ++ [close]), [], by simp⟩) [close]
      (.token (by simp [hclose])) (hl.of_part ⟨x :: xs, [], by simp⟩)
    have haccesses := Matches.again (a := .access)
      (.left (.right (.enclosed (matches_symbol hx) hkey (matches_symbol hclose)))) hall
    rwa [List.cons_append, List.append_assoc] at haccesses
  | @call x target args e xs ys hx hargs _ ih ihall =>
    intro o ho hadmits
    obtain ⟨front, close, rfl, hclose⟩ := hargs.ends_args
    have hinner := ih l (hl.of_part ⟨[x], ys, rfl⟩)
    have hall := ihall l (hl.of_part ⟨x :: (front ++ [close]), [], by simp⟩) [close]
      (.token (by simp [hclose])) (hl.of_part ⟨x :: front, [], by simp⟩)
    exact .again (.right (Matches.assoc (.cons (matches_symbol hx) hinner))) hall
  | no_args hclose => exact @Matches.both l _ _ [] _ (.part .absent) (matches_symbol hclose)
  | @args close e es xs ys _ _ hclose ih ihmore =>
    have hfirst := ih l (hl.of_part ⟨[], _, rfl⟩)
    have hothers := ihmore l (hl.of_part ⟨xs, [close], by simp⟩)
    have hargs := Matches.both (.part (p := .args) (.present (.both hfirst hothers)))
      (matches_symbol hclose)
    rwa [List.append_assoc] at hargs
  | literal hx =>
    rcases kind_of_literal hx with hkind | hkind
    · exact .part (.left (.left (.left (.left (.right (matches_kinds (by simp [hkind])))))))
    · exact .part (.left (.left (.left (.left (.left (.part (matches_kinds hkind)))))))
  | @parenthesised x close e xs hx _ hclose ih =>
    have hinner := (ih l (hl.of_part ⟨[x], [close], by simp⟩)).1
    exact .part (.left (.left (.right
      (.enclosed (matches_symbol hx) hinner (matches_symbol hclose)))))
  | @array x close es xs hx _ hclose ih =>
    have hinner := ih l (hl.of_part ⟨[x], [close], by simp⟩)
    exact .part (.left (.right (.part
      (.enclosed (matches_symbol hx) hinner (matches_symbol hclose)))))
  | @object x close es xs hx _ hclose ih =>
    have hinner := ih l (hl.of_part ⟨[x], [close], by simp⟩)
    exact .part (.right (.part (.enclosed (matches_symbol hx) hinner (matches_symbol hclose))))
  | no_items => exact .absent
  | last_item _ ih => exact (ih l hl).items_singleton
  | @item comma e es xs ys _ hcomma _ ih ihmore =>
    exact Matches.items_cons (ih l (hl.of_part ⟨[], _, rfl⟩)) hcomma
      (ihmore l (hl.of_part ⟨xs ++ [comma], [], by simp⟩))
  | @value colon key e xs hcolon _ ih =>
    exact .present (.cons (matches_symbol hcolon) (ih l (hl.of_part ⟨[colon], [], by simp⟩)))
  | shorthand => exact .absent
  | no_entries => exact .absent
  | @last_entry key e xs hkey _ ih =>
    have hvalue := ih l (hl.of_part ⟨[key], [], by simp⟩)
    exact Matches.items_singleton (.part (.cons (matches_key hkey) hvalue))
  | @entries key comma e es xs ys hkey _ hcomma _ ih ihmore =>
    have hvalue := ih l (hl.of_part ⟨[key], comma :: ys, by simp⟩)
    have hothers := ihmore l (hl.of_part ⟨key :: (xs ++ [comma]), [], by simp⟩)
    exact Matches.items_cons (.part (.cons (matches_key hkey) hvalue)) hcomma hothers

/-! ## Whole texts -/

theorem isLetter_of_isDecimalDigit {c : Char} (h : Text.isDecimalDigit c = true) :
    Text.isLetter c = false := by
  have hapart : (Text.decimalRanges.all fun r => Text.letterRanges.all fun s =>
      Nat.blt r.2 s.1 || Nat.blt s.2 r.1) = true := by decide +kernel
  rw [Text.isDecimalDigit, Text.digitValue?] at h
  rw [Text.isLetter]
  split at h
  · next hsmall =>
    rw [if_pos hsmall, ← Bool.not_eq_true, isAsciiLetter_iff]
    split at h
    · next hdigit =>
      have hbounds := Decimal.isAsciiDigit_iff.mp hdigit
      omega
    · cases h
  · next hlarge =>
    rw [if_neg hlarge, ← Bool.not_eq_true, Text.Ranges.has_iff]
    rintro ⟨s, hs, hle, hge⟩
    rw [Option.isSome_map, List.find?_isSome] at h
    obtain ⟨r, hr, hmem⟩ := h
    rw [Bool.and_eq_true, Nat.ble_eq, Nat.ble_eq] at hmem
    have hranges := List.all_eq_true.mp (List.all_eq_true.mp hapart r hr) s hs
    rw [Bool.or_eq_true, Nat.blt_eq, Nat.blt_eq] at hranges
    omega

/-- A token other than a string that begins like a name is a word. -/
theorem isWord_of_tokenAtFront {pos : Nat} {c : Char} {rest text : List Char} {kind : Kind}
    (h : tokenAtFront pos c rest = .ok (kind, text))
    (hc : (Text.isLetter c || decide (c = '_') || decide (c = '$')) = true) : kind.IsWord := by
  rw [tokenAtFront] at h
  split at h
  · split at h
    · next hdigit =>
      have hne : c ≠ '_' ∧ c ≠ '$' := by
        constructor <;> (rintro rfl; exact absurd hdigit (by decide))
      simp [isLetter_of_isDecimalDigit hdigit, hne] at hc
    · cases h
  · split at h
    · cases h
      exact isWord_kindOfWord _
    · cases h

theorem Token.Takes.isNamed {t : Token} {chars rest : List Char} (h : t.Takes chars rest) :
    t.lexeme.IsNamed := by
  cases h with
  | string => exact fun _ => Or.inr rfl
  | @front pos c tail rest kind h =>
    intro hnames
    have hfirst : (Text.isLetter c || decide (c = '_') || decide (c = '$')) = true := by
      simpa [Lexeme.names, Token.lexeme, namesProperty] using hnames
    rcases isWord_of_tokenAtFront h hfirst with hkind | ⟨k, hkind⟩ <;>
      exact Or.inl (by simp [Lexeme.isWord, Token.lexeme, hkind])

theorem isNamed_of_covers {pos : Nat} {cs : List Char} {ts : List Token} (h : Covers pos cs ts) :
    ∀ t ∈ ts, t.lexeme.IsNamed := by
  induction h with
  | done => exact List.forall_mem_singleton.mpr nofun
  | token _ _ htake _ ih => exact List.forall_mem_cons.mpr ⟨htake.isNamed, ih⟩

/-- The parser accepts nothing outside of the grammar but for its two liberties: the tokens of every
text that is an expression are a sequence of the grammar with those liberties that they show signs
of, and of the grammar itself if no string stands directly behind a dot and no index begins with an
expression and a comma. -/
theorem parseExpr_matches {source : String} (h : parseExpr source = .ok e) :
    ∃ ts xs, tokenize source = .ok ts ∧ ts.map Token.lexeme = xs ++ [.eof] ∧
      ∀ l : Liberties, l.Cover xs → Matches l (.part .sequence) xs := by
  obtain ⟨xs, hlexes, hderives⟩ := derives_parseExpr h
  obtain ⟨ts, hts, hmap⟩ := hlexes 0
  refine ⟨ts, xs, hts, hmap, fun l hl => (hderives.fits l ⟨fun x hx => ?_, hl⟩).1⟩
  have hmem : x ∈ ts.map Token.lexeme := by
    rw [hmap]
    exact List.mem_append_left _ hx
  obtain ⟨t, ht, rfl⟩ := List.mem_map.mp hmem
  exact isNamed_of_covers (lex_covers hts) t ht

/-- Without strings and brackets there is no sign of a liberty. -/
theorem cover_of_plain {l : Liberties}
    (h : ∀ x ∈ xs, x.kind ≠ .string ∧ x.kind ≠ .symbol .lbracket) : l.Cover xs where
  quotedNames := fun ⟨_, y, hxy, _, hy⟩ => absurd hy (h y (hxy.subset (by simp))).1
  listIndices := fun ⟨_, x, _, ho, _, hx, _⟩ => absurd hx (h x (ho.subset (by simp))).2

def sampleText : String := "f(x).new ? \x7ba, b: -1\x7d : y"

theorem parseExpr_matches_sample : ∃ e ts xs, parseExpr sampleText = .ok e ∧
    tokenize sampleText = .ok ts ∧ ts.map Token.lexeme = xs ++ [.eof] ∧
    (∀ x ∈ xs, x.kind ≠ .string ∧ x.kind ≠ .symbol .lbracket) ∧
    Matches .none (.part .sequence) xs := by
  obtain ⟨e, he⟩ : ∃ e, parseExpr sampleText = .ok e := ⟨_, by cbv⟩
  obtain ⟨ts, xs, hts, hmap, hall⟩ := parseExpr_matches he
  have hkinds : (tokenize sampleText).map (fun ts => ts.map Token.kind) = .ok
      [.ident, .symbol .lparen, .ident, .symbol .rparen, .symbol .dot, .keyword .kwNew,
        .symbol .question, .symbol .lbrace, .ident, .symbol .comma, .ident, .symbol .colon,
        .symbol .minus, .int, .symbol .rbrace, .symbol .colon, .ident, .eof] := by cbv
  rw [hts] at hkinds
  have hnone : ∀ k ∈ ts.map Token.kind, k ≠ .string ∧ k ≠ .symbol .lbracket := by
    rw [show ts.map Token.kind = _ from Except.ok.inj hkinds]
    decide
  have hplain : ∀ x ∈ xs, x.kind ≠ .string ∧ x.kind ≠ .symbol .lbracket := by
    intro x hx
    have hmem : x.kind ∈ (ts.map Token.lexeme).map Lexeme.kind := by
      rw [hmap]
      exact List.mem_map_of_mem (List.mem_append_left _ hx)
    rw [List.map_map] at hmem
    exact hnone _ hmem
  exact ⟨e, ts, xs, he, hts, hmap, hplain, hall .none (cover_of_plain hplain)⟩

end Script
end Vitrine
