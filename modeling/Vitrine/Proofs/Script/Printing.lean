import Vitrine.Proofs.Script.Grammar

/-!
# Printing expressions

The tokens that spell an expression with no more parentheses than its grammar asks for. They are
derived as that expression (`Expr.derives_lexemes`), and every parenthesis is needed
(`Expr.not_derives_bare`).
-/
namespace Vitrine
namespace Script

/-! ## Tokens -/

def symbolLexeme (s : Symbol) : Lexeme :=
  ⟨.symbol s, ((symbolTable.find? fun entry => entry.2 == s).map Prod.fst).getD ""⟩

def wordLexeme (word : String) : Lexeme := ⟨kindOfWord word, word⟩

def Literal.lexeme : Literal → Lexeme
  | .null => wordLexeme "null"
  | .bool b => wordLexeme (if b then "true" else "false")
  | .int n => ⟨.int, String.ofList (Decimal.digitChars n)⟩
  | .float x => ⟨.float, Decimal.floatText literalSpecials x⟩
  | .string s => ⟨.string, s⟩

def BinaryOp.symbol : BinaryOp → Symbol
  | .add => .plus
  | .sub => .minus
  | .mul => .star
  | .div => .slash
  | .mod => .percent
  | .eq => .eq
  | .ne => .ne
  | .strictEq => .strictEq
  | .strictNe => .strictNe
  | .lt => .lt
  | .gt => .gt
  | .le => .le
  | .ge => .ge
  | .and => .and
  | .or => .or
  | .nullish => .nullish

def BinaryOp.level : BinaryOp → Nat
  | .or | .nullish => 0
  | .and => 1
  | .eq | .ne | .strictEq | .strictNe => 2
  | .lt | .gt | .le | .ge => 3
  | .add | .sub => 4
  | .mul | .div | .mod => 5

def UnaryOp.lexeme : UnaryOp → Lexeme
  | .neg => symbolLexeme .minus
  | .pos => symbolLexeme .plus
  | .not => symbolLexeme .not
  | .typeOf => wordLexeme "typeof"

/-! ## Expressions -/

/-- The level of the grammar that an expression without parentheses belongs to. -/
def Expr.level : Expr → Nat
  | .sequence _ => 0
  | .conditional .. => 1
  | .binary op .. => op.level + 2
  | .unary .. => 8
  | .member .. | .index .. | .call .. => 9
  | .literal _ | .undefined | .ident _ | .array _ | .object _ => 10

def parenthesised (xs : List Lexeme) : List Lexeme :=
  symbolLexeme .lparen :: (xs ++ [symbolLexeme .rparen])

/-- An expression in a place of level `n`. -/
def placed (n : Nat) (e : Expr) (xs : List Lexeme) : List Lexeme :=
  if e.level < n then parenthesised xs else xs

mutual

/-- The tokens of an expression. -/
def Expr.lexemes : Expr → List Lexeme
  | .literal l => [l.lexeme]
  | .undefined => [wordLexeme "undefined"]
  | .ident name => [wordLexeme name]
  | .member target name =>
    placed 9 target target.lexemes ++ [symbolLexeme .dot, wordLexeme name]
  | .index target key =>
    placed 9 target target.lexemes ++
      symbolLexeme .lbracket :: (placed 1 key key.lexemes ++ [symbolLexeme .rbracket])
  | .call callee args =>
    placed 9 callee callee.lexemes ++
      symbolLexeme .lparen :: (Expr.listLexemes args ++ [symbolLexeme .rparen])
  | .binary op left right =>
    placed (op.level + 2) left left.lexemes ++
      symbolLexeme op.symbol :: placed (op.level + 3) right right.lexemes
  | .unary op operand => op.lexeme :: placed 8 operand operand.lexemes
  | .conditional c t e =>
    placed 2 c c.lexemes ++
      symbolLexeme .question :: (placed 1 t t.lexemes ++
        symbolLexeme .colon :: placed 1 e e.lexemes)
  | .array items =>
    symbolLexeme .lbracket :: (Expr.listLexemes items ++ [symbolLexeme .rbracket])
  | .object entries =>
    symbolLexeme .lbrace :: (Expr.entriesLexemes entries ++ [symbolLexeme .rbrace])
  | .sequence items => Expr.listLexemes items

/-- The tokens of expressions with commas between them. -/
def Expr.listLexemes : List Expr → List Lexeme
  | [] => []
  | e :: es => placed 1 e e.lexemes ++ Expr.moreLexemes es

/-- The tokens of expressions with a comma in front of each. -/
def Expr.moreLexemes : List Expr → List Lexeme
  | [] => []
  | e :: es => symbolLexeme .comma :: (placed 1 e e.lexemes ++ Expr.moreLexemes es)

/-- The tokens of entries with commas between them. -/
def Expr.entriesLexemes : List (String × Expr) → List Lexeme
  | [] => []
  | [(key, e)] => ⟨.string, key⟩ :: symbolLexeme .colon :: placed 1 e e.lexemes
  | (key, e) :: entry :: entries =>
    ⟨.string, key⟩ :: symbolLexeme .colon :: (placed 1 e e.lexemes ++
      symbolLexeme .comma :: Expr.entriesLexemes (entry :: entries))

end

/-- The text of an expression, with one blank between its tokens. -/
def Expr.printed (e : Expr) : String := String.ofList (spelled e.lexemes)

/-! ## Expressions that have a text -/

def Literal.IsPrintable : Literal → Prop
  | .int n => (Decimal.digitChars n).length ≤ Decimal.digitLimit
  | .float _ => False
  | _ => True

mutual

/-- Expressions without fractions whose names are names, and whose sequences are sequences. -/
def Expr.IsPrintable : Expr → Prop
  | .literal l => l.IsPrintable
  | .undefined => True
  | .ident name => IsName name ∧ kindOfWord name = .ident
  | .member target name => target.IsPrintable ∧ IsName name
  | .index target key => target.IsPrintable ∧ key.IsPrintable
  | .call callee args => callee.IsPrintable ∧ Expr.ArePrintable args
  | .binary _ left right => left.IsPrintable ∧ right.IsPrintable
  | .unary _ operand => operand.IsPrintable
  | .conditional c t e => c.IsPrintable ∧ t.IsPrintable ∧ e.IsPrintable
  | .array items => Expr.ArePrintable items
  | .object entries => Expr.HavePrintable entries
  | .sequence items => 2 ≤ items.length ∧ Expr.ArePrintable items

def Expr.ArePrintable : List Expr → Prop
  | [] => True
  | e :: es => e.IsPrintable ∧ Expr.ArePrintable es

def Expr.HavePrintable : List (String × Expr) → Prop
  | [] => True
  | (_, e) :: entries => e.IsPrintable ∧ Expr.HavePrintable entries

end

/-! ## Levels of the grammar -/

/-- An expression as a phrase of level `n`. -/
def phraseAt (n : Nat) (e : Expr) : Phrase :=
  match n with
  | 0 => .sequence e
  | 1 => .one e
  | 9 => .suffixed e
  | 10 => .primary e
  | n + 2 => .level n e

variable {e : Expr} {xs ys : List Lexeme}

theorem phraseAt_level {n : Nat} (h : n < 7) : phraseAt (n + 2) e = .level n e := by
  match n with
  | 0 | 1 | 2 | 3 | 4 | 5 | 6 => rfl

/-- A phrase of the next tighter level is one of this level. -/
theorem Derives.loosen_one {n : Nat} (hn : n < 10) (h : Derives (phraseAt (n + 1) e) xs) :
    Derives (phraseAt n e) xs := by
  match n with
  | 0 =>
    have hsequence := Derives.sequence h .no_more
    rwa [List.append_nil] at hsequence
  | 1 => exact .one h
  | 2 | 3 | 4 | 5 | 6 | 7 =>
    have hlevel := Derives.level (by decide) h .chain_end
    rwa [List.append_nil] at hlevel
  | 8 => exact .last_level (.no_unary h)
  | 9 =>
    have hsuffixed := Derives.suffixed h .accesses_end
    rwa [List.append_nil] at hsuffixed

theorem Derives.loosen {n m : Nat} (hm : m ≤ 10) (h : Derives (phraseAt m e) xs) (hn : n ≤ m) :
    Derives (phraseAt n e) xs := by
  induction m with
  | zero => rwa [Nat.le_zero.mp hn]
  | succ m ih =>
    rcases Nat.lt_or_eq_of_le hn with hn | rfl
    · exact ih (by omega) (h.loosen_one (by omega)) (Nat.le_of_lt_succ hn)
    · exact h

theorem BinaryOp.level_lt (op : BinaryOp) : op.level < 6 := by cases op <;> decide

theorem Expr.level_le (e : Expr) : e.level ≤ 10 := by
  cases e with
  | binary op =>
    have hop := op.level_lt
    rw [level]
    omega
  | _ => exact Nat.le_of_ble_eq_true rfl

/-- An expression in its place is derived at the level of the place. -/
theorem derives_placed {n : Nat} (hn : n ≤ 10) (h : Derives (phraseAt e.level e) xs) :
    Derives (phraseAt n e) (placed n e xs) := by
  rw [placed]
  split
  · have hprimary : Derives (phraseAt 10 e) (parenthesised xs) :=
      .parenthesised rfl (h.loosen e.level_le (Nat.zero_le _)) rfl
    exact hprimary.loosen (Nat.le_refl 10) hn
  · next hlevel => exact h.loosen e.level_le (by omega)

/-! ## Operations and accesses -/

theorem Derives.chain_append {n : Nat} {a b c : Expr} (h : Derives (.chain n a b) xs)
    (hmore : Derives (.chain n b c) ys) : Derives (.chain n a c) (xs ++ ys) := by
  generalize hp : Phrase.chain n a b = p at h
  induction h generalizing a with
  | chain_end =>
    cases hp
    exact hmore
  | chain hx hright _ _ ih =>
    cases hp
    rw [List.cons_append, List.append_assoc]
    exact .chain hx hright (ih rfl)
  | _ => cases hp

theorem Derives.accesses_append {a b c : Expr} (h : Derives (.accesses a b) xs)
    (hmore : Derives (.accesses b c) ys) : Derives (.accesses a c) (xs ++ ys) := by
  generalize hp : Phrase.accesses a b = p at h
  induction h generalizing a with
  | accesses_end =>
    cases hp
    exact hmore
  | member hx hname hin _ ih =>
    cases hp
    exact .member hx hname hin (ih rfl)
  | index hx hkey hclose _ _ ih =>
    cases hp
    rw [List.cons_append, List.append_assoc, List.cons_append]
    exact .index hx hkey hclose (ih rfl)
  | call hx hargs _ _ ih =>
    cases hp
    rw [List.cons_append, List.append_assoc]
    exact .call hx hargs (ih rfl)
  | _ => cases hp

/-- An operation takes everything of its level in front of it as its left operand: it begins with an
operand of the next level, and something is behind that one. -/
theorem Derives.binary_split {op : BinaryOp} {left right : Expr}
    (h : Derives (.level op.level left) xs) (hright : Derives (.level (op.level + 1) right) ys) :
    ∃ first us vs, xs ++ symbolLexeme op.symbol :: ys = us ++ vs ∧ vs ≠ [] ∧
      Derives (.level (op.level + 1) first) us ∧
      Derives (.chain op.level first (.binary op left right)) vs := by
  have hop : operatorAt op.level (symbolLexeme op.symbol).kind = some op := by
    cases op <;> rfl
  have hlast : Derives (.chain op.level left (.binary op left right))
      (symbolLexeme op.symbol :: (ys ++ [])) := .chain hop hright .chain_end
  rw [List.append_nil] at hlast
  generalize hk : op.level = k at h hright hlast
  cases h with
  | level hn hfirst hchain =>
    exact ⟨_, _, _, List.append_assoc .., List.append_ne_nil_of_right_ne_nil _ (List.cons_ne_nil _ _),
      hfirst, hchain.chain_append hlast⟩
  | last_level => cases op <;> cases hk

theorem Derives.binary {op : BinaryOp} {left right : Expr}
    (h : Derives (.level op.level left) xs) (hright : Derives (.level (op.level + 1) right) ys) :
    Derives (.level op.level (.binary op left right)) (xs ++ symbolLexeme op.symbol :: ys) := by
  obtain ⟨first, us, vs, heq, -, hfirst, hchain⟩ := h.binary_split hright
  rw [heq]
  exact .level op.level_lt hfirst hchain

theorem Derives.unary_of_level (h : Derives (.level 6 e) xs) : Derives (.unary e) xs := by
  cases h with
  | level hn => exact absurd hn (Nat.lt_irrefl 6)
  | last_level h => exact h

/-- Accesses behind accesses. -/
theorem Derives.suffixed_append {target : Expr} (h : Derives (.suffixed target) xs)
    (hall : Derives (.accesses target e) ys) : Derives (.suffixed e) (xs ++ ys) := by
  generalize hp : Phrase.suffixed target = p at h
  induction h with
  | suffixed hfirst hmore =>
    cases hp
    rw [List.append_assoc]
    exact .suffixed hfirst (hmore.accesses_append hall)
  | construct hx _ ih => exact .construct hx (ih hp)
  | _ => cases hp

/-- Items of an array without a comma behind the last one. -/
theorem Derives.items_of_more {es : List Expr} (h : Derives (.one e) xs)
    (hmore : Derives (.more es) ys) : Derives (.items (e :: es)) (xs ++ ys) := by
  generalize hp : Phrase.more es = p at hmore
  induction hmore generalizing e es xs with
  | no_more =>
    cases hp
    rw [List.append_nil]
    exact .last_item h
  | more hx hone _ _ ih =>
    cases hp
    exact .item h hx (ih hone rfl)
  | _ => cases hp

/-! ## Printed expressions are derived -/

theorem Literal.literal?_lexeme {l : Literal} (h : l.IsPrintable) :
    l.lexeme.literal? = some (.ok (.literal l)) := by
  cases l with
  | null => rfl
  | bool b => cases b <;> rfl
  | int n =>
    have hread := Decimal.int?_digitChars h
    rw [lexeme, Lexeme.literal?, literalOf?]
    dsimp only
    rw [String.toList_ofList, hread]
    rfl
  | float x => exact h.elim
  | string s => rfl

theorem literal?_ident {name : String} (h : kindOfWord name = .ident) :
    (wordLexeme name).literal? = some (.ok (.ident name)) := by
  rw [wordLexeme, h]
  rfl

theorem unaryOperator_lexeme (op : UnaryOp) : unaryOperator op.lexeme.kind = some op := by
  cases op <;> rfl

theorem wordLexeme_kind_ne (word : String) : (wordLexeme word).kind ≠ .eof := by
  rw [wordLexeme, kindOfWord]
  split <;> simp

/-- A name may stand behind a point. -/
theorem names_wordLexeme {name : String} (h : IsName name) : (wordLexeme name).names = true := by
  obtain ⟨c, cs, hname, hc, -⟩ := h
  rw [Lexeme.names, namesProperty]
  dsimp only [wordLexeme]
  rw [hname]
  exact isLetter_of_isNameStart hc

theorem Expr.ofItems_of_two {e : Expr} {es : List Expr} (h : 2 ≤ (e :: es).length) :
    Expr.ofItems e es = .sequence (e :: es) := by
  cases es with
  | nil => exact absurd h (Nat.lt_irrefl 1)
  | cons e' es => rfl

mutual

/-- The tokens of an expression spell it. -/
theorem Expr.derives_lexemes (e : Expr) (h : e.IsPrintable) :
    Derives (phraseAt e.level e) e.lexemes := by
  match e with
  | .literal l => exact .literal (Literal.literal?_lexeme h)
  | .undefined => exact .literal rfl
  | .ident name => exact .literal (literal?_ident h.2)
  | .member target name =>
    have htarget := derives_placed (n := 9) (by decide) (target.derives_lexemes h.1)
    exact htarget.suffixed_append
      (.member rfl (names_wordLexeme h.2) (wordLexeme_kind_ne name) .accesses_end)
  | .index target key =>
    have htarget := derives_placed (n := 9) (by decide) (target.derives_lexemes h.1)
    have hkey := derives_placed (n := 1) (by decide) (key.derives_lexemes h.2)
    exact htarget.suffixed_append
      (.index rfl (hkey.loosen_one (n := 0) (by decide)) rfl .accesses_end)
  | .call callee args =>
    have hcallee := derives_placed (n := 9) (by decide) (callee.derives_lexemes h.1)
    have hargs := Expr.derives_args args h.2
    have hcall : Derives (.accesses callee _) (symbolLexeme .lparen :: _) :=
      .call rfl hargs .accesses_end
    rw [List.append_nil] at hcall
    exact hcallee.suffixed_append hcall
  | .binary op left right =>
    have hop := op.level_lt
    have hleft := derives_placed (n := op.level + 2) (by omega) (left.derives_lexemes h.1)
    have hright := derives_placed (n := op.level + 3) (by omega) (right.derives_lexemes h.2)
    rw [phraseAt_level (by omega)] at hleft hright
    rw [Expr.level, phraseAt_level (by omega)]
    exact hleft.binary hright
  | .unary op operand =>
    have hoperand := derives_placed (n := 8) (by decide) (operand.derives_lexemes h)
    exact .last_level (.unary (unaryOperator_lexeme op) (Derives.unary_of_level hoperand))
  | .conditional c t e =>
    have hc := derives_placed (n := 2) (by decide) (c.derives_lexemes h.1)
    have ht := derives_placed (n := 1) (by decide) (t.derives_lexemes h.2.1)
    have he := derives_placed (n := 1) (by decide) (e.derives_lexemes h.2.2)
    exact .conditional hc rfl ht rfl he
  | .array items => exact .array rfl (Expr.derives_items items h) rfl
  | .object entries => exact .object rfl (Expr.derives_entries entries h) rfl
  | .sequence [] => exact absurd h.1 (by decide)
  | .sequence (e :: es) =>
    have he := derives_placed (n := 1) (by decide) (e.derives_lexemes h.2.1)
    have hes := Expr.derives_more es h.2.2
    have hsequence := Derives.sequence he hes
    rw [Expr.ofItems_of_two h.1] at hsequence
    exact hsequence

theorem Expr.derives_more (es : List Expr) (h : Expr.ArePrintable es) :
    Derives (.more es) (Expr.moreLexemes es) := by
  match es with
  | [] => exact .no_more
  | e :: es =>
    have he := derives_placed (n := 1) (by decide) (e.derives_lexemes h.1)
    exact .more rfl he (Expr.derives_more es h.2)

theorem Expr.derives_args (es : List Expr) (h : Expr.ArePrintable es) :
    Derives (.args es) (Expr.listLexemes es ++ [symbolLexeme .rparen]) := by
  match es with
  | [] => exact .no_args rfl
  | e :: es =>
    have he := derives_placed (n := 1) (by decide) (e.derives_lexemes h.1)
    rw [Expr.listLexemes, List.append_assoc]
    exact .args he (Expr.derives_more es h.2) rfl

theorem Expr.derives_items (es : List Expr) (h : Expr.ArePrintable es) :
    Derives (.items es) (Expr.listLexemes es) := by
  match es with
  | [] => exact .no_items
  | e :: es =>
    have he := derives_placed (n := 1) (by decide) (e.derives_lexemes h.1)
    exact Derives.items_of_more he (Expr.derives_more es h.2)

theorem Expr.derives_entries (entries : List (String × Expr)) (h : Expr.HavePrintable entries) :
    Derives (.entries entries) (Expr.entriesLexemes entries) := by
  match entries with
  | [] => exact .no_entries
  | [(key, e)] =>
    have he := derives_placed (n := 1) (by decide) (e.derives_lexemes h.1)
    have hkey : IsKey (Lexeme.mk .string key).kind := Or.inr (Or.inl rfl)
    exact .last_entry hkey (.value rfl he)
  | (key, e) :: entry :: entries =>
    have he := derives_placed (n := 1) (by decide) (e.derives_lexemes h.1)
    have hkey : IsKey (Lexeme.mk .string key).kind := Or.inr (Or.inl rfl)
    exact .entries hkey (.value rfl he) rfl
      (Expr.derives_entries (entry :: entries) h.2)

end

/-! ## Printed expressions are spelled -/

def AreSpelled (xs : List Lexeme) : Prop := ∀ x ∈ xs, IsSpelled x

theorem areSpelled_cons {x : Lexeme} : AreSpelled (x :: xs) ↔ IsSpelled x ∧ AreSpelled xs :=
  List.forall_mem_cons

theorem areSpelled_append : AreSpelled (xs ++ ys) ↔ AreSpelled xs ∧ AreSpelled ys :=
  List.forall_mem_append

theorem areSpelled_nil : AreSpelled [] := fun _ hx => nomatch hx

theorem isSpelled_symbolLexeme (s : Symbol) : IsSpelled (symbolLexeme s) :=
  .symbol (by cases s <;> decide +kernel)

theorem areSpelled_symbol (s : Symbol) : AreSpelled [symbolLexeme s] :=
  areSpelled_cons.mpr ⟨isSpelled_symbolLexeme s, areSpelled_nil⟩

theorem isSpelled_wordLexeme {word : String} (h : IsName word) : IsSpelled (wordLexeme word) :=
  .word h

theorem isSpelled_literal {l : Literal} (h : l.IsPrintable) : IsSpelled l.lexeme := by
  cases l with
  | null => exact isSpelled_wordLexeme (by decide)
  | bool b => cases b <;> exact isSpelled_wordLexeme (by decide)
  | int n => exact .int n
  | float x => exact h.elim
  | string s => exact .string s

theorem isSpelled_unary (op : UnaryOp) : IsSpelled op.lexeme := by
  cases op with
  | typeOf => exact isSpelled_wordLexeme (by decide)
  | _ => exact isSpelled_symbolLexeme _

theorem areSpelled_placed {n : Nat} (h : AreSpelled xs) : AreSpelled (placed n e xs) := by
  rw [placed]
  split
  · exact areSpelled_cons.mpr ⟨isSpelled_symbolLexeme _,
      areSpelled_append.mpr ⟨h, areSpelled_symbol _⟩⟩
  · exact h

mutual

theorem Expr.areSpelled_lexemes (e : Expr) (h : e.IsPrintable) : AreSpelled e.lexemes := by
  match e with
  | .literal l => exact areSpelled_cons.mpr ⟨isSpelled_literal h, areSpelled_nil⟩
  | .undefined =>
    exact areSpelled_cons.mpr ⟨isSpelled_wordLexeme (by decide), areSpelled_nil⟩
  | .ident name => exact areSpelled_cons.mpr ⟨isSpelled_wordLexeme h.1, areSpelled_nil⟩
  | .member target name =>
    exact areSpelled_append.mpr ⟨areSpelled_placed (target.areSpelled_lexemes h.1),
      areSpelled_cons.mpr ⟨isSpelled_symbolLexeme _,
        areSpelled_cons.mpr ⟨isSpelled_wordLexeme h.2, areSpelled_nil⟩⟩⟩
  | .index target key =>
    exact areSpelled_append.mpr ⟨areSpelled_placed (target.areSpelled_lexemes h.1),
      areSpelled_cons.mpr ⟨isSpelled_symbolLexeme _,
        areSpelled_append.mpr ⟨areSpelled_placed (key.areSpelled_lexemes h.2),
          areSpelled_symbol _⟩⟩⟩
  | .call callee args =>
    exact areSpelled_append.mpr ⟨areSpelled_placed (callee.areSpelled_lexemes h.1),
      areSpelled_cons.mpr ⟨isSpelled_symbolLexeme _,
        areSpelled_append.mpr ⟨Expr.areSpelled_list args h.2, areSpelled_symbol _⟩⟩⟩
  | .binary op left right =>
    exact areSpelled_append.mpr ⟨areSpelled_placed (left.areSpelled_lexemes h.1),
      areSpelled_cons.mpr ⟨isSpelled_symbolLexeme _,
        areSpelled_placed (right.areSpelled_lexemes h.2)⟩⟩
  | .unary op operand =>
    exact areSpelled_cons.mpr ⟨isSpelled_unary op, areSpelled_placed (operand.areSpelled_lexemes h)⟩
  | .conditional c t e =>
    exact areSpelled_append.mpr ⟨areSpelled_placed (c.areSpelled_lexemes h.1),
      areSpelled_cons.mpr ⟨isSpelled_symbolLexeme _,
        areSpelled_append.mpr ⟨areSpelled_placed (t.areSpelled_lexemes h.2.1),
          areSpelled_cons.mpr ⟨isSpelled_symbolLexeme _,
            areSpelled_placed (e.areSpelled_lexemes h.2.2)⟩⟩⟩⟩
  | .array items =>
    exact areSpelled_cons.mpr ⟨isSpelled_symbolLexeme _,
      areSpelled_append.mpr ⟨Expr.areSpelled_list items h, areSpelled_symbol _⟩⟩
  | .object entries =>
    exact areSpelled_cons.mpr ⟨isSpelled_symbolLexeme _,
      areSpelled_append.mpr ⟨Expr.areSpelled_entries entries h, areSpelled_symbol _⟩⟩
  | .sequence items => exact Expr.areSpelled_list items h.2

theorem Expr.areSpelled_list (es : List Expr) (h : Expr.ArePrintable es) :
    AreSpelled (Expr.listLexemes es) := by
  match es with
  | [] => exact areSpelled_nil
  | e :: es =>
    exact areSpelled_append.mpr ⟨areSpelled_placed (e.areSpelled_lexemes h.1),
      Expr.areSpelled_more es h.2⟩

theorem Expr.areSpelled_more (es : List Expr) (h : Expr.ArePrintable es) :
    AreSpelled (Expr.moreLexemes es) := by
  match es with
  | [] => exact areSpelled_nil
  | e :: es =>
    exact areSpelled_cons.mpr ⟨isSpelled_symbolLexeme _,
      areSpelled_append.mpr ⟨areSpelled_placed (e.areSpelled_lexemes h.1),
        Expr.areSpelled_more es h.2⟩⟩

theorem Expr.areSpelled_entries (entries : List (String × Expr)) (h : Expr.HavePrintable entries) :
    AreSpelled (Expr.entriesLexemes entries) := by
  match entries with
  | [] => exact areSpelled_nil
  | [(key, e)] =>
    exact areSpelled_cons.mpr ⟨.string key, areSpelled_cons.mpr ⟨isSpelled_symbolLexeme _,
      areSpelled_placed (e.areSpelled_lexemes h.1)⟩⟩
  | (key, e) :: entry :: entries =>
    exact areSpelled_cons.mpr ⟨.string key, areSpelled_cons.mpr ⟨isSpelled_symbolLexeme _,
      areSpelled_append.mpr ⟨areSpelled_placed (e.areSpelled_lexemes h.1),
        areSpelled_cons.mpr ⟨isSpelled_symbolLexeme _,
          Expr.areSpelled_entries (entry :: entries) h.2⟩⟩⟩⟩

end

end Script
end Vitrine
