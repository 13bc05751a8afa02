import Vitrine.Proofs.Script.Reading

/-!
# The grammar of expressions

Which tokens spell which expression (`Derives`), one constructor for each alternative of the grammar.
Whatever is derived is what the parser reads, unless a token behind it continues it
(`Derives.parses`).
-/
namespace Vitrine
namespace Script

/-- What a part of the grammar stands for. -/
inductive Phrase where
  | sequence (e : Expr)
  | more (es : List Expr)
  | one (e : Expr)
  | level (n : Nat) (e : Expr)
  /-- The operations of a level behind an operand, and the whole that they make with it. -/
  | chain (n : Nat) (left e : Expr)
  | unary (e : Expr)
  | suffixed (e : Expr)
  /-- The accesses and calls behind a target, and the whole. -/
  | accesses (target e : Expr)
  | args (es : List Expr)
  | primary (e : Expr)
  | items (es : List Expr)
  | entry (key : Lexeme) (e : Expr)
  | entries (es : List (String × Expr))

def Lexeme.names (x : Lexeme) : Bool := namesProperty ⟨x.kind, x.text, 0⟩

def Lexeme.literal? (x : Lexeme) : Option (Except ParseError Expr) := literalOf? ⟨x.kind, x.text, 0⟩

/-- The tokens of a phrase. -/
inductive Derives : Phrase → List Lexeme → Prop
  | sequence {e es xs ys} (h : Derives (.one e) xs) (hmore : Derives (.more es) ys) :
      Derives (.sequence (Expr.ofItems e es)) (xs ++ ys)
  | no_more : Derives (.more []) []
  | more {x e es xs ys} (hx : x.kind = .symbol .comma) (h : Derives (.one e) xs)
      (hmore : Derives (.more es) ys) : Derives (.more (e :: es)) (x :: (xs ++ ys))
  | one {e xs} (h : Derives (.level 0 e) xs) : Derives (.one e) xs
  | conditional {mark colon c t e xs ys zs} (h : Derives (.level 0 c) xs)
      (hmark : mark.kind = .symbol .question) (ht : Derives (.one t) ys)
      (hcolon : colon.kind = .symbol .colon) (he : Derives (.one e) zs) :
      Derives (.one (.conditional c t e)) (xs ++ mark :: (ys ++ colon :: zs))
  | level {n left e xs ys} (hn : n < 6) (h : Derives (.level (n + 1) left) xs)
      (hchain : Derives (.chain n left e) ys) : Derives (.level n e) (xs ++ ys)
  | last_level {e xs} (h : Derives (.unary e) xs) : Derives (.level 6 e) xs
  | chain_end {n left} : Derives (.chain n left left) []
  | chain {x n op left right e xs ys} (hx : operatorAt n x.kind = some op)
      (h : Derives (.level (n + 1) right) xs)
      (hchain : Derives (.chain n (.binary op left right) e) ys) :
      Derives (.chain n left e) (x :: (xs ++ ys))
  | unary {x op e xs} (hx : unaryOperator x.kind = some op) (h : Derives (.unary e) xs) :
      Derives (.unary (.unary op e)) (x :: xs)
  | no_unary {e xs} (h : Derives (.suffixed e) xs) : Derives (.unary e) xs
  | suffixed {target e xs ys} (h : Derives (.primary target) xs)
      (hall : Derives (.accesses target e) ys) : Derives (.suffixed e) (xs ++ ys)
  | construct {x e xs} (hx : x.kind = .keyword .kwNew) (h : Derives (.suffixed e) xs) :
      Derives (.suffixed e) (x :: xs)
  | accesses_end {target} : Derives (.accesses target target) []
  | member {x name target e xs} (hx : x.kind = .symbol .dot) (hname : name.names = true)
      (hin : name.kind ≠ .eof) (h : Derives (.accesses (.member target name.text) e) xs) :
      Derives (.accesses target e) (x :: name :: xs)
  | index {x close target key e xs ys} (hx : x.kind = .symbol .lbracket)
      (h : Derives (.sequence key) xs) (hclose : close.kind = .symbol .rbracket)
      (hall : Derives (.accesses (.index target key) e) ys) :
      Derives (.accesses target e) (x :: (xs ++ close :: ys))
  | call {x target args e xs ys} (hx : x.kind = .symbol .lparen) (h : Derives (.args args) xs)
      (hall : Derives (.accesses (.call target args) e) ys) :
      Derives (.accesses target e) (x :: (xs ++ ys))
  | no_args {close} (hclose : close.kind = .symbol .rparen) : Derives (.args []) [close]
  | args {close e es xs ys} (h : Derives (.one e) xs) (hmore : Derives (.more es) ys)
      (hclose : close.kind = .symbol .rparen) : Derives (.args (e :: es)) (xs ++ (ys ++ [close]))
  | literal {x e} (h : x.literal? = some (.ok e)) : Derives (.primary e) [x]
  | parenthesised {x close e xs} (hx : x.kind = .symbol .lparen) (h : Derives (.sequence e) xs)
      (hclose : close.kind = .symbol .rparen) : Derives (.primary e) (x :: (xs ++ [close]))
  | array {x close es xs} (hx : x.kind = .symbol .lbracket) (h : Derives (.items es) xs)
      (hclose : close.kind = .symbol .rbracket) :
      Derives (.primary (.array es)) (x :: (xs ++ [close]))
  | object {x close es xs} (hx : x.kind = .symbol .lbrace) (h : Derives (.entries es) xs)
      (hclose : close.kind = .symbol .rbrace) :
      Derives (.primary (.object es)) (x :: (xs ++ [close]))
  | no_items : Derives (.items []) []
  | last_item {e xs} (h : Derives (.one e) xs) : Derives (.items [e]) xs
  | item {comma e es xs ys} (h : Derives (.one e) xs) (hcomma : comma.kind = .symbol .comma)
      (hmore : Derives (.items es) ys) : Derives (.items (e :: es)) (xs ++ comma :: ys)
  | value {colon key e xs} (hcolon : colon.kind = .symbol .colon) (h : Derives (.one e) xs) :
      Derives (.entry key e) (colon :: xs)
  | shorthand {key} (hkey : key.kind = .ident) : Derives (.entry key (.ident key.text)) []
  | no_entries : Derives (.entries []) []
  | last_entry {key e xs} (hkey : IsKey key.kind) (h : Derives (.entry key e) xs) :
      Derives (.entries [(key.text, e)]) (key :: xs)
  | entries {key comma e es xs ys} (hkey : IsKey key.kind) (h : Derives (.entry key e) xs)
      (hcomma : comma.kind = .symbol .comma) (hmore : Derives (.entries es) ys) :
      Derives (.entries ((key.text, e) :: es)) (key :: (xs ++ comma :: ys))

/-! ## First tokens -/

/-- The tokens that an operand begins with. -/
def opens (kind : Kind) : Bool :=
  match kind with
  | .symbol .lparen | .symbol .lbracket | .symbol .lbrace | .keyword .kwNew | .int | .float | .string
  | .ident | .keyword .kwTrue | .keyword .kwFalse | .keyword .kwNull | .keyword .kwUndefined => true
  | _ => false

/-- What the first token of a phrase is like. -/
def Phrase.Opens (p : Phrase) (kind : Kind) : Prop :=
  match p with
  | .sequence _ | .one _ | .level _ _ | .unary _ => opens kind = true ∨ unaryOperator kind ≠ none
  | .suffixed _ | .primary _ => opens kind = true
  | _ => True

/-- Phrases that are an expression. -/
def Phrase.IsWhole (p : Phrase) : Prop :=
  match p with
  | .sequence _ | .one _ | .level _ _ | .unary _ | .suffixed _ | .primary _ => True
  | _ => False

theorem opens_of_literal {x : Lexeme} {e : Expr} (h : x.literal? = some (.ok e)) :
    opens x.kind = true := by
  obtain ⟨kind, text⟩ := x
  rw [Lexeme.literal?, literalOf?] at h
  dsimp only at h ⊢
  split at h <;> first | rfl | cases h

/-- A token stands for a literal, for undefined or for the value of a name. -/
theorem Lexeme.literal?_eq {x : Lexeme} {e : Expr} (h : x.literal? = some (.ok e)) :
    (∃ l, e = .literal l) ∨ e = .undefined ∨ x.kind = .ident ∧ e = .ident x.text := by
  have hread : ∀ {a : Expr}, some (.ok a) = x.literal? → e = a := fun ha =>
    (Except.ok.inj (Option.some.inj (ha.trans h))).symm
  obtain ⟨kind, text⟩ := x
  cases kind with
  | int | float =>
    rw [literal?, literalOf?] at h
    dsimp only at h
    split at h
    · exact Or.inl ⟨_, (Except.ok.inj (Option.some.inj h)).symm⟩
    · cases h
  | string => exact Or.inl ⟨_, hread rfl⟩
  | ident => exact Or.inr (Or.inr ⟨rfl, hread rfl⟩)
  | keyword k =>
    cases k with
    | kwTrue | kwFalse | kwNull => exact Or.inl ⟨_, hread rfl⟩
    | kwUndefined => exact Or.inr (Or.inl (hread rfl))
    | _ => cases h
  | symbol s => cases h
  | eof => cases h

theorem unaryOperator_of_opens {kind : Kind} (h : opens kind = true) : unaryOperator kind = none := by
  rw [opens.eq_def] at h
  split at h <;> first | rfl | cases h

theorem Derives.first_token {p : Phrase} {xs : List Lexeme} (h : Derives p xs) (hp : p.IsWhole) :
    ∃ y ys, xs = y :: ys ∧ p.Opens y.kind := by
  induction h with
  | sequence _ _ ih =>
    obtain ⟨y, ys, rfl, hy⟩ := ih trivial
    exact ⟨y, _, rfl, hy⟩
  | one _ ih => exact ih trivial
  | conditional _ _ _ _ _ ih =>
    obtain ⟨y, ys, rfl, hy⟩ := ih trivial
    exact ⟨y, _, rfl, hy⟩
  | level _ _ _ ih =>
    obtain ⟨y, ys, rfl, hy⟩ := ih trivial
    exact ⟨y, _, rfl, hy⟩
  | last_level _ ih => exact ih trivial
  | unary hx _ _ => exact ⟨_, _, rfl, Or.inr (by rw [hx]; exact Option.some_ne_none _)⟩
  | no_unary _ ih =>
    obtain ⟨y, ys, rfl, hy⟩ := ih trivial
    exact ⟨y, _, rfl, Or.inl hy⟩
  | suffixed _ _ ih =>
    obtain ⟨y, ys, rfl, hy⟩ := ih trivial
    exact ⟨y, _, rfl, hy⟩
  | construct hx => exact ⟨_, _, rfl, by rw [Phrase.Opens, hx]; rfl⟩
  | literal hx => exact ⟨_, _, rfl, opens_of_literal hx⟩
  | parenthesised hx => exact ⟨_, _, rfl, by rw [Phrase.Opens, hx]; rfl⟩
  | array hx => exact ⟨_, _, rfl, by rw [Phrase.Opens, hx]; rfl⟩
  | object hx => exact ⟨_, _, rfl, by rw [Phrase.Opens, hx]; rfl⟩
  | _ => exact hp.elim

/-! ## Single tokens -/

/-- A phrase that is an expression is what a token stands for by itself. -/
def Phrase.IsLiteral (p : Phrase) (x : Lexeme) : Prop :=
  match p with
  | .sequence e | .one e | .level _ e | .unary e | .suffixed e | .primary e =>
    x.literal? = some (.ok e)
  | _ => True

theorem Derives.more_nil {es : List Expr} (h : Derives (.more es) []) : es = [] := by
  cases h
  rfl

theorem Derives.chain_nil {n : Nat} {left e : Expr} (h : Derives (.chain n left e) []) : e = left := by
  cases h
  rfl

theorem Derives.accesses_nil {target e : Expr} (h : Derives (.accesses target e) []) : e = target := by
  cases h
  rfl

theorem Derives.not_nil {p : Phrase} (hp : p.IsWhole) : ¬ Derives p [] := by
  intro h
  obtain ⟨y, ys, hnil, -⟩ := h.first_token hp
  cases hnil

/-- An expression before something else is the token, and nothing else is there. -/
theorem Derives.of_append_singleton {p : Phrase} {xs ys : List Lexeme} {x : Lexeme}
    (h : Derives p xs) (hp : p.IsWhole) (heq : xs ++ ys = [x]) : xs = [x] ∧ ys = [] := by
  rcases List.append_eq_singleton_iff.mp heq with ⟨rfl, -⟩ | hboth
  · exact absurd h (Derives.not_nil hp)
  · exact hboth

/-- A token that makes an expression by itself is a literal or a name. -/
theorem Derives.isLiteral {p : Phrase} {x : Lexeme} (h : Derives p [x]) : p.IsLiteral x := by
  generalize hxs : [x] = xs at h
  induction h with
  | sequence h hmore ih =>
    obtain ⟨rfl, rfl⟩ := h.of_append_singleton trivial hxs.symm
    rw [hmore.more_nil]
    exact ih rfl
  | one h ih => exact ih hxs
  | conditional h =>
    obtain ⟨-, hnil⟩ := h.of_append_singleton trivial hxs.symm
    cases hnil
  | level hn h hchain ih =>
    obtain ⟨rfl, rfl⟩ := h.of_append_singleton trivial hxs.symm
    rw [hchain.chain_nil]
    exact ih rfl
  | last_level h ih => exact ih hxs
  | unary hx h =>
    cases hxs
    exact absurd h (Derives.not_nil trivial)
  | no_unary h ih => exact ih hxs
  | suffixed h hall ih =>
    obtain ⟨rfl, rfl⟩ := h.of_append_singleton trivial hxs.symm
    rw [hall.accesses_nil]
    exact ih rfl
  | construct hx h =>
    cases hxs
    exact absurd h (Derives.not_nil trivial)
  | literal h =>
    cases hxs
    exact h
  | @parenthesised x close => simp at hxs
  | @array x close => simp at hxs
  | @object x close => simp at hxs
  | _ => trivial

/-! ## The token behind a phrase -/

/-- The level at which a token continues an expression: 0 in a sequence, 1 in a conditional, 2 to 7
between operands, 9 behind an operand. -/
def jointLevel (kind : Kind) : Option Nat :=
  match kind with
  | .symbol .comma => some 0
  | .symbol .question => some 1
  | .symbol .or | .symbol .nullish => some 2
  | .symbol .and => some 3
  | .symbol .eq | .symbol .ne | .symbol .strictEq | .symbol .strictNe => some 4
  | .symbol .lt | .symbol .gt | .symbol .le | .symbol .ge => some 5
  | .symbol .plus | .symbol .minus => some 6
  | .symbol .star | .symbol .slash | .symbol .percent => some 7
  | .symbol .dot | .symbol .lbracket | .symbol .lparen => some 9
  | _ => none

/-- No token in front continues an expression at level `n` or a tighter one. -/
def Stops (n : Nat) (xs : List Lexeme) : Prop :=
  ∀ y ys, xs = y :: ys → ∀ m, jointLevel y.kind = some m → m < n

theorem jointLevel_of_operatorAt {n : Nat} {kind : Kind} {op : BinaryOp}
    (h : operatorAt n kind = some op) : jointLevel kind = some (n + 2) := by
  rw [operatorAt.eq_def] at h
  split at h <;> first | rfl | cases h

theorem jointLevel_of_accesses {kind : Kind} (h : accesses kind = true) :
    jointLevel kind = some 9 := by
  rw [accesses, Bool.or_eq_true, Bool.or_eq_true, decide_eq_true_eq, decide_eq_true_eq,
    decide_eq_true_eq] at h
  rcases h with (rfl | rfl) | rfl <;> rfl

theorem Stops.mono {n m : Nat} {xs : List Lexeme} (h : Stops n xs) (hm : n ≤ m) : Stops m xs :=
  fun y ys hy k hk => Nat.lt_of_lt_of_le (h y ys hy k hk) hm

theorem stops_cons {n : Nat} {x : Lexeme} {xs : List Lexeme}
    (h : ∀ m, jointLevel x.kind = some m → m < n) : Stops n (x :: xs) := by
  intro y ys hy
  rw [← (List.cons.inj hy).1]
  exact h

theorem stops_of_joint {n m : Nat} {x : Lexeme} {xs : List Lexeme}
    (hx : jointLevel x.kind = some m) (h : m < n) : Stops n (x :: xs) :=
  stops_cons fun k hk => by rw [← Option.some.inj (hx.symm.trans hk)]; exact h

theorem stops_of_none {n : Nat} {x : Lexeme} {xs : List Lexeme} (hx : jointLevel x.kind = none) :
    Stops n (x :: xs) :=
  stops_cons fun k hk => by rw [hx] at hk; cases hk

theorem Stops.ne {n m : Nat} {kind : Kind} {xs ys : List Lexeme} {y : Lexeme} (h : Stops n xs)
    (hkind : jointLevel kind = some m) (hm : n ≤ m) (hy : xs = y :: ys) : y.kind ≠ kind := by
  intro hyk
  have := h y ys hy m (hyk ▸ hkind)
  omega

theorem Stops.no_operator {n : Nat} {xs ys : List Lexeme} {y : Lexeme} (h : Stops (n + 2) xs)
    (hy : xs = y :: ys) : operatorAt n y.kind = none := by
  match hop : operatorAt n y.kind with
  | none => rfl
  | some op => exact absurd (h y ys hy _ (jointLevel_of_operatorAt hop)) (Nat.lt_irrefl _)

theorem Stops.no_access {xs ys : List Lexeme} {y : Lexeme} (h : Stops 9 xs) (hy : xs = y :: ys) :
    accesses y.kind = false := by
  match haccess : accesses y.kind with
  | false => rfl
  | true => exact absurd (h y ys hy _ (jointLevel_of_accesses haccess)) (Nat.lt_irrefl _)

/-! ## Reading a phrase -/

/-- That the parser reads the tokens of a phrase. -/
def Phrase.Parses (p : Phrase) (xs : List Lexeme) : Prop :=
  match p with
  | .sequence e => ∀ rest, Stops 0 rest → Reads parseSequence (xs ++ rest) e rest
  | .more es => ∀ rest, Stops 0 rest → Skims parseMore (xs ++ rest) es rest
  | .one e => ∀ rest, Stops 1 rest → Reads parseOne (xs ++ rest) e rest
  | .level n e => ∀ rest, Stops (n + 2) rest → Reads (parseLevel n) (xs ++ rest) e rest
  | .chain n left e => ∀ rest, Stops (n + 2) rest → Skims (parseChain n left) (xs ++ rest) e rest
  | .unary e => ∀ rest, Stops 9 rest → Reads parseUnary (xs ++ rest) e rest
  | .suffixed e => ∀ rest, Stops 9 rest → Reads parsePostfix (xs ++ rest) e rest
  | .accesses target e =>
    ∀ rest, Stops 9 rest → Skims (parseAccesses target) (xs ++ rest) e rest
  | .args es => ∀ rest, Reads parseArgs (xs ++ rest) es rest
  | .primary e => ∀ rest, Reads parsePrimary (xs ++ rest) e rest
  | .items es => ∀ close rest, close.kind = .symbol .rbracket →
      Skims parseItems (xs ++ close :: rest) es (close :: rest)
  | .entry key e => ∀ close rest, close.kind = .symbol .rbrace ∨ close.kind = .symbol .comma →
      ∀ t : Token, t.lexeme = key → Skims (parseEntry t) (xs ++ close :: rest) e (close :: rest)
  | .entries es => ∀ close rest, close.kind = .symbol .rbrace →
      Skims parseEntries (xs ++ close :: rest) es (close :: rest)

/-- The tokens of further items begin with a comma. -/
theorem Derives.stops_more {es : List Expr} {xs rest : List Lexeme} (h : Derives (.more es) xs)
    (hrest : Stops 0 rest) : Stops 1 (xs ++ rest) := by
  cases h with
  | no_more => exact hrest.mono (Nat.zero_le 1)
  | more hx => exact stops_of_joint (m := 0) (by rw [hx]; rfl) (Nat.lt_succ_self 0)

/-- The tokens behind the first operand of a level begin with an operator of that level. -/
theorem Derives.stops_chain {n : Nat} {left e : Expr} {xs rest : List Lexeme}
    (h : Derives (.chain n left e) xs) (hrest : Stops (n + 2) rest) : Stops (n + 3) (xs ++ rest) := by
  cases h with
  | chain_end => exact hrest.mono (Nat.le_succ _)
  | chain hx => exact stops_of_joint (jointLevel_of_operatorAt hx) (Nat.lt_succ_self _)

/-- No phrase begins with a closing symbol. -/
theorem Derives.ne_closing {p : Phrase} {xs rest ys : List Lexeme} {y : Lexeme} {kind : Kind}
    (h : Derives p xs) (hp : p.IsWhole) (hkind : opens kind = false ∧ unaryOperator kind = none)
    (hy : xs ++ rest = y :: ys) : y.kind ≠ kind := by
  obtain ⟨z, zs, rfl, hz⟩ := h.first_token hp
  rw [← (List.cons.inj hy).1]
  rintro rfl
  cases p with
  | sequence | one | level | unary =>
    rcases hz with hz | hz
    · rw [hkind.1] at hz
      cases hz
    · exact hz hkind.2
  | suffixed | primary =>
    rw [Phrase.Opens, hkind.1] at hz
    cases hz
  | _ => exact hp

/-- A derived phrase is read. -/
theorem Derives.parses {p : Phrase} {xs : List Lexeme} (h : Derives p xs) : p.Parses xs := by
  induction h with
  | sequence _ hmore ih ihmore =>
    intro rest hrest
    rw [List.append_assoc]
    exact reads_sequence (ih _ (hmore.stops_more hrest)) (ihmore _ hrest)
  | no_more =>
    intro rest hrest
    exact skims_no_more fun y ys hy => hrest.ne (m := 0) rfl (Nat.le_refl 0) hy
  | more hx _ hmore ih ihmore =>
    intro rest hrest
    rw [List.cons_append, List.append_assoc]
    exact skims_more hx (ih _ (hmore.stops_more hrest)) (ihmore _ hrest)
  | one _ ih =>
    intro rest hrest
    exact reads_one (ih _ (hrest.mono (Nat.le_succ 1)))
      fun y ys hy => hrest.ne (m := 1) rfl (Nat.le_refl 1) hy
  | conditional _ hmark _ hcolon _ ih iht ihe =>
    intro rest hrest
    rw [List.append_assoc, List.cons_append, List.append_assoc, List.cons_append]
    exact reads_conditional (ih _ (stops_of_joint (m := 1) (by rw [hmark]; rfl) (by decide))) hmark
      (iht _ (stops_of_none (by rw [hcolon]; rfl))) hcolon (ihe _ hrest)
  | level hn _ hchain ih ihchain =>
    intro rest hrest
    rw [List.append_assoc]
    exact reads_level hn (ih _ (hchain.stops_chain hrest)) (ihchain _ hrest)
  | last_level _ ih =>
    intro rest hrest
    exact reads_last_level (Nat.lt_irrefl 6) (ih _ (hrest.mono (by decide)))
  | chain_end =>
    intro rest hrest
    exact skims_chain_end fun y ys hy => hrest.no_operator hy
  | chain hx _ hchain ih ihchain =>
    intro rest hrest
    rw [List.cons_append, List.append_assoc]
    exact skims_chain hx (ih _ (hchain.stops_chain hrest)) (ihchain _ hrest)
  | unary hx _ ih =>
    intro rest hrest
    exact reads_unary hx (ih _ hrest)
  | no_unary h ih =>
    intro rest hrest
    refine reads_no_unary (ih _ hrest) fun y ys hy => ?_
    obtain ⟨z, zs, rfl, hz⟩ := h.first_token trivial
    rw [← (List.cons.inj hy).1]
    exact unaryOperator_of_opens hz
  | suffixed _ _ ih ihall =>
    intro rest hrest
    rw [List.append_assoc]
    exact reads_postfix (ih _) (ihall _ hrest)
  | construct hx _ ih =>
    intro rest hrest
    exact reads_postfix (reads_new hx (ih _ hrest))
      (skims_accesses_end fun y ys hy => hrest.no_access hy)
  | accesses_end =>
    intro rest hrest
    exact skims_accesses_end fun y ys hy => hrest.no_access hy
  | member hx hname hin _ ih =>
    intro rest hrest
    refine skims_member hx (fun t ht => ?_) hin (ih _ hrest)
    rw [← ht] at hname
    exact hname
  | index hx _ hclose _ ih ihall =>
    intro rest hrest
    rw [List.cons_append, List.append_assoc, List.cons_append]
    exact skims_index hx (ih _ (stops_of_none (by rw [hclose]; rfl))) hclose (ihall _ hrest)
  | call hx _ _ ih ihall =>
    intro rest hrest
    rw [List.cons_append, List.append_assoc]
    exact skims_call hx (ih _) (ihall _ hrest)
  | no_args hclose => exact fun rest => reads_no_args hclose
  | args h hmore hclose ih ihmore =>
    intro rest
    have hstop : Stops 0 (_ :: rest) := stops_of_none (by rw [hclose]; rfl)
    rw [List.append_assoc, List.append_assoc]
    exact reads_args (fun y ys hy => h.ne_closing trivial (by decide) hy)
      (ih _ (hmore.stops_more hstop)) (ihmore _ hstop) hclose
  | literal hx =>
    intro rest
    refine reads_literal fun t ht => ?_
    rw [← ht] at hx
    exact hx
  | parenthesised hx _ hclose ih =>
    intro rest
    rw [List.cons_append, List.append_assoc]
    exact reads_parenthesised hx (ih _ (stops_of_none (by rw [hclose]; rfl))) hclose
  | array hx _ hclose ih =>
    intro rest
    rw [List.cons_append, List.append_assoc]
    exact reads_array hx (ih _ _ hclose) hclose
  | object hx _ hclose ih =>
    intro rest
    rw [List.cons_append, List.append_assoc]
    exact reads_object hx (ih _ _ hclose) hclose
  | no_items => exact fun close rest hclose => skims_no_items hclose
  | last_item h ih =>
    intro close rest hclose
    refine skims_last_item (fun y ys hy => h.ne_closing trivial (by decide) hy)
      (ih _ (stops_of_none (by rw [hclose]; rfl))) fun z zs hz => ?_
    rw [← (List.cons.inj hz).1, hclose]
    decide
  | item h hcomma _ ih ihmore =>
    intro close rest hclose
    rw [List.append_assoc, List.cons_append]
    exact skims_item (fun y ys hy => h.ne_closing trivial (by decide) hy)
      (ih _ (stops_of_joint (m := 0) (by rw [hcomma]; rfl) (by decide))) hcomma
      (ihmore _ _ hclose)
  | value hcolon _ ih =>
    intro close rest hclose t _
    refine skims_value hcolon (ih _ ?_)
    rcases hclose with hclose | hclose
    · exact stops_of_none (by rw [hclose]; rfl)
    · exact stops_of_joint (m := 0) (by rw [hclose]; rfl) (by decide)
  | shorthand hkey =>
    intro close rest hclose t ht
    rw [← ht] at hkey ⊢
    refine skims_shorthand hkey fun y ys hy => ?_
    rw [← (List.cons.inj hy).1]
    rcases hclose with hclose | hclose <;> rw [hclose] <;> decide
  | no_entries => exact fun close rest hclose => skims_no_entries hclose
  | last_entry hkey _ ih =>
    intro close rest hclose
    refine skims_last_entry hkey (ih _ _ (Or.inl hclose)) fun z zs hz => ?_
    rw [← (List.cons.inj hz).1, hclose]
    decide
  | entries hkey _ hcomma _ ih ihmore =>
    intro close rest hclose
    rw [List.cons_append, List.append_assoc, List.cons_append]
    exact skims_entry hkey (ih _ _ (Or.inr hcomma)) hcomma (ihmore _ _ hclose)

end Script
end Vitrine
