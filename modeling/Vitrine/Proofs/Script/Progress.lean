import Vitrine.Proofs.Script.Joining
import Vitrine.Proofs.Script.Reading
import Vitrine.Script.Program

/-!
# Progress of the parser

On tokens that end in the end of input, every part of the parser leaves a place among them, takes
nothing from behind them and never passes the end of input; a part that may not be empty takes a
token (`parser_advances`).
-/
namespace Vitrine
namespace Script

variable {α β σ τ : Type} {ts us rest extra : List Token} {t : Token}

/-- Tokens of which the last one, and no other, is the end of input. -/
inductive Terminated : List Token → Prop
  | last {t : Token} (ht : t.kind = .eof) : Terminated [t]
  | cons {t : Token} {ts : List Token} (ht : t.kind ≠ .eof) (h : Terminated ts) : Terminated (t :: ts)

namespace Terminated

theorem tail (h : Terminated (t :: ts)) (ht : t.kind ≠ .eof) : Terminated ts := by
  cases h with
  | last heof => exact absurd heof ht
  | cons _ h => exact h

theorem exists_cons (h : Terminated ts) : ∃ t rest, ts = t :: rest := by
  cases h with
  | last _ => exact ⟨_, _, rfl⟩
  | cons _ _ => exact ⟨_, _, rfl⟩

theorem current_append (h : Terminated ts) (extra : List Token) :
    current (ts ++ extra) = current ts := by
  cases h <;> rfl

end Terminated

theorem terminated_iff : Terminated ts ↔
    ∃ front t, ts = front ++ [t] ∧ t.kind = .eof ∧ ∀ u ∈ front, u.kind ≠ .eof := by
  constructor
  · intro h
    induction h with
    | @last t ht => exact ⟨[], t, rfl, ht, nofun⟩
    | @cons u ts hu _ ih =>
      obtain ⟨front, t, rfl, ht, hfront⟩ := ih
      exact ⟨u :: front, t, rfl, ht, List.forall_mem_cons.mpr ⟨hu, hfront⟩⟩
  · rintro ⟨front, t, rfl, ht, hfront⟩
    induction front with
    | nil => exact .last ht
    | cons u front ih =>
      rw [List.forall_mem_cons] at hfront
      exact .cons hfront.1 (ih hfront.2)

/-! ## Places -/

/-- `rest` are the tokens of `ts` from a place on that is not behind the end of input. -/
def Leaves (ts rest : List Token) : Prop :=
  Terminated rest ∧ ∃ taken, ts = taken ++ rest ∧ ∀ t ∈ taken, t.kind ≠ .eof

namespace Leaves

theorem refl (h : Terminated ts) : Leaves ts ts := ⟨h, [], rfl, nofun⟩

theorem cons (ht : t.kind ≠ .eof) (h : Leaves ts rest) : Leaves (t :: ts) rest := by
  obtain ⟨hrest, taken, rfl, htaken⟩ := h
  exact ⟨hrest, t :: taken, rfl, List.forall_mem_cons.mpr ⟨ht, htaken⟩⟩

theorem trans (h : Leaves ts us) (h' : Leaves us rest) : Leaves ts rest := by
  obtain ⟨-, taken, rfl, htaken⟩ := h
  obtain ⟨hrest, more, rfl, hmore⟩ := h'
  refine ⟨hrest, taken ++ more, (List.append_assoc taken more rest).symm, fun t ht => ?_⟩
  exact (List.mem_append.mp ht).elim (htaken t) (hmore t)

end Leaves

/-! ## Reading with and without tokens behind the end of input -/

def Parsed.view (p : Parsed α ts) : α × List Token := (p.value, p.rest)

def Followed.view (p : Followed α ts) : α × List Token := (p.value, p.rest)

/-- Two readings from `ts`, the second with `extra` behind them, end alike. -/
inductive Keeps (ts extra : List Token) :
    Except ParseError (α × List Token) → Except ParseError (α × List Token) → Prop
  | error (e : ParseError) : Keeps ts extra (.error e) (.error e)
  | ok (a : α) {rest : List Token} (h : Leaves ts rest) : Keeps ts extra (.ok (a, rest)) (.ok (a, rest ++ extra))

namespace Keeps

variable {v : σ → β × List Token} {v' : τ → β × List Token}

theorem behind {x y : Except ParseError (α × List Token)} (hts : Leaves ts us)
    (h : Keeps us extra x y) : Keeps ts extra x y := by
  cases h with
  | error e => exact .error e
  | ok a h => exact .ok a (hts.trans h)

theorem tail {x y : Except ParseError (α × List Token)} (ht : t.kind ≠ .eof)
    (h : Keeps ts extra x y) : Keeps (t :: ts) extra x y := by
  cases h with
  | error e => exact .error e
  | ok a h => exact .ok a (h.cons ht)

theorem map_cases {x : Except ParseError σ} {y : Except ParseError τ}
    (h : Keeps ts extra (x.map v) (y.map v')) :
    (∃ e, x = .error e ∧ y = .error e) ∨
      ∃ p q, x = .ok p ∧ y = .ok q ∧ v' q = ((v p).1, (v p).2 ++ extra) ∧ Leaves ts (v p).2 := by
  generalize hx : x.map v = x' at h
  generalize hy : y.map v' = y' at h
  cases h with
  | error e =>
    cases x <;> cases hx
    cases y <;> cases hy
    exact Or.inl ⟨e, rfl, rfl⟩
  | ok a hleaves =>
    cases x with
    | error e => cases hx
    | ok p =>
      cases y with
      | error e => cases hy
      | ok q =>
        obtain ⟨rfl, rfl⟩ := Prod.mk.inj (Except.ok.inj hx)
        exact Or.inr ⟨p, q, rfl, rfl, Except.ok.inj hy, hleaves⟩

/-- Readers that go on with what two others left. -/
theorem parsed {x : Except ParseError (Parsed α ts)} {y : Except ParseError (Parsed α us)}
    {f : Parsed α ts → Except ParseError σ} {g : Parsed α us → Except ParseError τ}
    (hx : Keeps ts extra (x.map Parsed.view) (y.map Parsed.view))
    (hf : ∀ p : Parsed α ts, Terminated p.rest → ∀ hlt : (p.rest ++ extra).length < us.length,
      Keeps p.rest extra ((f p).map v) ((g ⟨p.value, p.rest ++ extra, hlt⟩).map v')) :
    Keeps ts extra ((x >>= f).map v) ((y >>= g).map v') := by
  rcases hx.map_cases with ⟨e, rfl, rfl⟩ | ⟨p, ⟨_, _, hlt⟩, rfl, rfl, heq, hleaves⟩
  · exact .error e
  · obtain ⟨rfl, rfl⟩ := Prod.mk.inj heq
    exact .behind hleaves (hf p hleaves.1 hlt)

theorem followed {x : Except ParseError (Followed α ts)} {y : Except ParseError (Followed α us)}
    {f : Followed α ts → Except ParseError σ} {g : Followed α us → Except ParseError τ}
    (hx : Keeps ts extra (x.map Followed.view) (y.map Followed.view))
    (hf : ∀ p : Followed α ts, Terminated p.rest → ∀ hle : (p.rest ++ extra).length ≤ us.length,
      Keeps p.rest extra ((f p).map v) ((g ⟨p.value, p.rest ++ extra, hle⟩).map v')) :
    Keeps ts extra ((x >>= f).map v) ((y >>= g).map v') := by
  rcases hx.map_cases with ⟨e, rfl, rfl⟩ | ⟨p, ⟨_, _, hle⟩, rfl, rfl, heq, hleaves⟩
  · exact .error e
  · obtain ⟨rfl, rfl⟩ := Prod.mk.inj heq
    exact .behind hleaves (hf p hleaves.1 hle)

end Keeps

/-! ## Tokens -/

theorem keeps_expectToken {kind : Kind} (h : Terminated ts) (hkind : kind ≠ .eof) :
    Keeps ts extra ((expectToken kind ts).map Parsed.view)
      ((expectToken kind (ts ++ extra)).map Parsed.view) := by
  obtain ⟨t, rest, rfl⟩ := h.exists_cons
  rw [List.cons_append, expectToken, expectToken]
  by_cases ht : t.kind = kind
  · rw [if_pos ht, if_pos ht]
    have hne : t.kind ≠ .eof := ht ▸ hkind
    exact .ok t (.cons hne (.refl (h.tail hne)))
  · rw [if_neg ht, if_neg ht]
    exact .error _

theorem skipSymbol_append (s : Symbol) (h : Terminated ts) (extra : List Token) :
    ∃ b rest hle hle', skipSymbol s ts = ⟨b, rest, hle⟩ ∧
      skipSymbol s (ts ++ extra) = ⟨b, rest ++ extra, hle'⟩ ∧ Leaves ts rest := by
  obtain ⟨t, rest, rfl⟩ := h.exists_cons
  rw [List.cons_append, skipSymbol, skipSymbol]
  by_cases ht : t.kind = .symbol s
  · have hne : t.kind ≠ .eof := by simp [ht]
    rw [if_pos ht, if_pos ht]
    exact ⟨_, _, _, _, rfl, rfl, .cons hne (.refl (h.tail hne))⟩
  · rw [if_neg ht, if_neg ht]
    exact ⟨_, _, _, _, rfl, rfl, .refl h⟩

theorem beyond_append (t : Token) (ts extra : List Token) :
    beyond t (ts ++ extra) = beyond t ts ++ extra := by
  rw [beyond, beyond]
  split <;> rfl

theorem leaves_beyond (h : Terminated (t :: ts)) : Leaves (t :: ts) (beyond t ts) := by
  rw [beyond]
  split
  · exact .refl h
  · next ht => exact .cons ht (.refl (h.tail ht))

theorem ne_eof_of_literal? {r : Except ParseError Expr} (h : literalOf? t = some r) :
    t.kind ≠ .eof := by
  intro ht
  rw [literalOf?, ht] at h
  cases h

/-! ## Expressions -/

mutual

theorem keeps_parseSequence {ts extra : List Token} (h : Terminated ts) :
    Keeps ts extra ((parseSequence ts).map Parsed.view)
      ((parseSequence (ts ++ extra)).map Parsed.view) := by
  rw [parseSequence, parseSequence]
  refine .parsed (keeps_parseOne h) fun first hfirst _ => ?_
  have hshort := first.shorter
  refine .followed (keeps_parseMore hfirst) fun others hothers _ => ?_
  exact .ok _ (.refl hothers)
termination_by (ts.length, 12)

theorem keeps_parseMore {ts extra : List Token} (h : Terminated ts) :
    Keeps ts extra ((parseMore ts).map Followed.view)
      ((parseMore (ts ++ extra)).map Followed.view) := by
  match ts, h with
  | [], h => cases h
  | t :: rest, h =>
    rw [List.cons_append, parseMore, parseMore]
    by_cases ht : t.kind = .symbol .comma
    · have hne : t.kind ≠ .eof := by simp [ht]
      rw [if_pos ht, if_pos ht]
      refine .tail hne (.parsed (keeps_parseOne (h.tail hne)) fun next hnext _ => ?_)
      have hshort := next.shorter
      refine .followed (keeps_parseMore hnext) fun others hothers _ => ?_
      exact .ok _ (.refl hothers)
    · rw [if_neg ht, if_neg ht]
      exact .ok _ (.refl h)
termination_by (ts.length, 0)

theorem keeps_parseOne {ts extra : List Token} (h : Terminated ts) :
    Keeps ts extra ((parseOne ts).map Parsed.view)
      ((parseOne (ts ++ extra)).map Parsed.view) := by
  rw [parseOne, parseOne]
  refine .parsed (keeps_parseLevel 0 h) fun condition hcondition _ => ?_
  have hshort := condition.shorter
  obtain ⟨asks, marked, hle, hle', heq, heq', hleaves⟩ :=
    skipSymbol_append .question hcondition extra
  rw [heq, heq']
  dsimp only
  split
  · refine .behind hleaves (.parsed (keeps_parseOne hleaves.1) fun thenExpr hthen _ => ?_)
    have hthenShort := thenExpr.shorter
    refine .parsed (keeps_expectToken hthen (by simp)) fun colon hcolon _ => ?_
    have hcolonShort := colon.shorter
    refine .parsed (keeps_parseOne hcolon) fun elseExpr helse _ => ?_
    exact .ok _ (.refl helse)
  · exact .ok _ (.refl hcondition)
termination_by (ts.length, 11)

theorem keeps_parseLevel (level : Nat) {ts extra : List Token} (h : Terminated ts) :
    Keeps ts extra ((parseLevel level ts).map Parsed.view)
      ((parseLevel level (ts ++ extra)).map Parsed.view) := by
  rw [parseLevel.eq_def level ts, parseLevel.eq_def level (ts ++ extra)]
  split
  · refine .parsed (keeps_parseLevel (level + 1) h) fun first hfirst _ => ?_
    have hshort := first.shorter
    refine .followed (keeps_parseChain level first.value hfirst) fun chain hchain _ => ?_
    exact .ok _ (.refl hchain)
  · exact keeps_parseUnary h
termination_by (ts.length, 4 + (6 - level))

theorem keeps_parseChain (level : Nat) (left : Expr) {ts extra : List Token} (h : Terminated ts) :
    Keeps ts extra ((parseChain level left ts).map Followed.view)
      ((parseChain level left (ts ++ extra)).map Followed.view) := by
  match ts, h with
  | [], h => cases h
  | t :: rest, h =>
    rw [List.cons_append, parseChain, parseChain]
    cases hop : operatorAt level t.kind with
    | none => exact .ok _ (.refl h)
    | some op =>
      have hne : t.kind ≠ .eof := fun ht => by
        rw [ht, operatorAt_eof] at hop
        cases hop
      refine .tail hne (.parsed (keeps_parseLevel (level + 1) (h.tail hne)) fun right hright _ => ?_)
      have hshort := right.shorter
      refine .followed (keeps_parseChain level _ hright) fun chain hchain _ => ?_
      exact .ok _ (.refl hchain)
termination_by (ts.length, 0)

theorem keeps_parseUnary {ts extra : List Token} (h : Terminated ts) :
    Keeps ts extra ((parseUnary ts).map Parsed.view)
      ((parseUnary (ts ++ extra)).map Parsed.view) := by
  match ts, h with
  | [], h => cases h
  | t :: rest, h =>
    rw [List.cons_append, parseUnary, parseUnary]
    cases hop : unaryOperator t.kind with
    | none => exact keeps_parsePostfix h
    | some op =>
      have hne : t.kind ≠ .eof := fun ht => by
        rw [ht] at hop
        cases hop
      refine .tail hne (.parsed (keeps_parseUnary (h.tail hne)) fun operand hoperand _ => ?_)
      exact .ok _ (.refl hoperand)
termination_by (ts.length, 3)

theorem keeps_parsePostfix {ts extra : List Token} (h : Terminated ts) :
    Keeps ts extra ((parsePostfix ts).map Parsed.view)
      ((parsePostfix (ts ++ extra)).map Parsed.view) := by
  rw [parsePostfix, parsePostfix]
  refine .parsed (keeps_parsePrimary h) fun first hfirst _ => ?_
  have hshort := first.shorter
  refine .followed (keeps_parseAccesses first.value hfirst) fun all hall _ => ?_
  exact .ok _ (.refl hall)
termination_by (ts.length, 2)

theorem keeps_parseAccesses (target : Expr) {ts extra : List Token} (h : Terminated ts) :
    Keeps ts extra ((parseAccesses target ts).map Followed.view)
      ((parseAccesses target (ts ++ extra)).map Followed.view) := by
  match ts, h with
  | [], h => cases h
  | t :: rest, h =>
    rw [List.cons_append, parseAccesses.eq_def, parseAccesses.eq_def target (t :: (rest ++ extra))]
    dsimp only
    split
    · next hdot =>
      have hne : t.kind ≠ .eof := by simp [hdot]
      have hrest := h.tail hne
      obtain ⟨name, after, rfl⟩ := hrest.exists_cons
      dsimp only [List.cons_append]
      split
      · have hlen : (beyond name after).length < (t :: name :: after).length :=
          Nat.lt_succ_of_le (beyond_noLonger name after)
        have hbeyond := leaves_beyond hrest
        have hall := @keeps_parseAccesses (.member target name.text) _ extra hbeyond.1
        rw [← beyond_append] at hall
        refine .tail hne (.behind hbeyond (.followed hall fun all hall _ => ?_))
        exact .ok _ (.refl hall)
      · exact .error _
    · next hbracket =>
      have hne : t.kind ≠ .eof := by simp [hbracket]
      refine .tail hne (.parsed (keeps_parseSequence (h.tail hne)) fun index hindex _ => ?_)
      have hshort := index.shorter
      refine .parsed (keeps_expectToken hindex (by simp)) fun close hclose _ => ?_
      have hcloseShort := close.shorter
      refine .followed (keeps_parseAccesses _ hclose) fun all hall _ => ?_
      exact .ok _ (.refl hall)
    · next hparen =>
      have hne : t.kind ≠ .eof := by simp [hparen]
      refine .tail hne (.parsed (keeps_parseArgs (h.tail hne)) fun args hargs _ => ?_)
      have hshort := args.shorter
      refine .followed (keeps_parseAccesses _ hargs) fun all hall _ => ?_
      exact .ok _ (.refl hall)
    · exact .ok _ (.refl h)
termination_by (ts.length, 1)

theorem keeps_parseArgs {ts extra : List Token} (h : Terminated ts) :
    Keeps ts extra ((parseArgs ts).map Parsed.view)
      ((parseArgs (ts ++ extra)).map Parsed.view) := by
  rw [parseArgs, parseArgs]
  obtain ⟨closes, rest, hle, hle', heq, heq', hleaves⟩ := skipSymbol_append .rparen h extra
  rw [heq, heq']
  dsimp only
  by_cases hlt : rest.length < ts.length
  · rw [dif_pos hlt, dif_pos (by simpa using hlt)]
    exact .ok _ hleaves
  · rw [dif_neg hlt, dif_neg (by simpa using hlt)]
    refine .parsed (keeps_parseOne h) fun first hfirst _ => ?_
    have hshort := first.shorter
    refine .followed (keeps_parseMore hfirst) fun others hothers _ => ?_
    refine .parsed (keeps_expectToken hothers (by simp)) fun close hclose _ => ?_
    exact .ok _ (.refl hclose)
termination_by (ts.length, 12)

theorem keeps_parsePrimary {ts extra : List Token} (h : Terminated ts) :
    Keeps ts extra ((parsePrimary ts).map Parsed.view)
      ((parsePrimary (ts ++ extra)).map Parsed.view) := by
  match ts, h with
  | [], h => cases h
  | t :: rest, h =>
    rw [List.cons_append, parsePrimary.eq_def, parsePrimary.eq_def (t :: (rest ++ extra))]
    dsimp only
    split
    · next hparen =>
      have hne : t.kind ≠ .eof := by simp [hparen]
      refine .tail hne (.parsed (keeps_parseSequence (h.tail hne)) fun inner hinner _ => ?_)
      refine .parsed (keeps_expectToken hinner (by simp)) fun close hclose _ => ?_
      exact .ok _ (.refl hclose)
    · next hbracket =>
      have hne : t.kind ≠ .eof := by simp [hbracket]
      refine .tail hne (.followed (keeps_parseItems (h.tail hne)) fun items hitems _ => ?_)
      refine .parsed (keeps_expectToken hitems (by simp)) fun close hclose _ => ?_
      exact .ok _ (.refl hclose)
    · next hbrace =>
      have hne : t.kind ≠ .eof := by simp [hbrace]
      refine .tail hne (.followed (keeps_parseEntries (h.tail hne)) fun entries hentries _ => ?_)
      refine .parsed (keeps_expectToken hentries (by simp)) fun close hclose _ => ?_
      exact .ok _ (.refl hclose)
    · next hnew =>
      have hne : t.kind ≠ .eof := by simp [hnew]
      refine .tail hne (.parsed (keeps_parsePostfix (h.tail hne)) fun inner hinner _ => ?_)
      exact .ok _ (.refl hinner)
    · cases hliteral : literalOf? t with
      | none => exact .error _
      | some r =>
        have hne := ne_eof_of_literal? hliteral
        cases r with
        | error e => exact .error e
        | ok e => exact .ok e (.cons hne (.refl (h.tail hne)))
termination_by (ts.length, 1)

theorem keeps_parseItems {ts extra : List Token} (h : Terminated ts) :
    Keeps ts extra ((parseItems ts).map Followed.view)
      ((parseItems (ts ++ extra)).map Followed.view) := by
  rw [parseItems, parseItems, h.current_append]
  split
  · exact .ok _ (.refl h)
  · refine .parsed (keeps_parseOne h) fun first hfirst _ => ?_
    have hshort := first.shorter
    obtain ⟨continues, rest, hle, hle', heq, heq', hleaves⟩ :=
      skipSymbol_append .comma hfirst extra
    rw [heq, heq']
    dsimp only
    split
    · refine .behind hleaves (.followed (keeps_parseItems hleaves.1) fun others hothers _ => ?_)
      exact .ok _ (.refl hothers)
    · exact .ok _ (.refl hfirst)
termination_by (ts.length, 12)

theorem keeps_parseEntries {ts extra : List Token} (h : Terminated ts) :
    Keeps ts extra ((parseEntries ts).map Followed.view)
      ((parseEntries (ts ++ extra)).map Followed.view) := by
  match ts, h with
  | [], h => cases h
  | key :: rest, h =>
    rw [List.cons_append]
    by_cases hbrace : key.kind = .symbol .rbrace
    · rw [parseEntries.eq_def, parseEntries.eq_def (key :: (rest ++ extra))]
      dsimp only
      rw [if_pos hbrace, if_pos hbrace]
      exact .ok _ (.refl h)
    by_cases hkey : IsKey key.kind
    · have hne : key.kind ≠ .eof := by
        rcases hkey with hkey | hkey | hkey <;> simp [hkey]
      have hrest := h.tail hne
      have hentry : Keeps rest extra ((parseEntry key rest).map Followed.view)
          ((parseEntry key (rest ++ extra)).map Followed.view) := by
        obtain ⟨valued, after, hle, hle', heq, heq', hleaves⟩ :=
          skipSymbol_append .colon hrest extra
        rw [parseEntry, parseEntry, heq, heq']
        dsimp only
        split
        · refine .behind hleaves (.parsed (keeps_parseOne hleaves.1) fun value hvalue _ => ?_)
          exact .ok _ (.refl hvalue)
        · split
          · exact .ok _ (.refl hrest)
          · exact .error _
      rw [parseEntries_cons hkey, parseEntries_cons hkey]
      refine .tail hne (.followed hentry fun entry hentry _ => ?_)
      have hshort := entry.noLonger
      obtain ⟨continues, after, hle, hle', heq, heq', hleaves⟩ :=
        skipSymbol_append .comma hentry extra
      rw [heq, heq']
      dsimp only
      split
      · refine .behind hleaves (.followed (keeps_parseEntries hleaves.1) fun others hothers _ => ?_)
        exact .ok _ (.refl hothers)
      · exact .ok _ (.refl hentry)
    · rw [parseEntries.eq_def, parseEntries.eq_def (key :: (rest ++ extra))]
      dsimp only
      rw [IsKey, not_or, not_or] at hkey
      have hother : (decide (key.kind ≠ .ident) && decide (key.kind ≠ .string) &&
          decide (key.kind ≠ .int)) = true := by simp [hkey]
      rw [if_neg hbrace, if_neg hbrace, if_pos hother, if_pos hother]
      exact .error _
termination_by (ts.length, 12)

end

/-! ## Statements and functions -/

theorem keeps_parseInitial (h : Terminated ts) :
    Keeps ts extra ((parseInitial ts).map Followed.view)
      ((parseInitial (ts ++ extra)).map Followed.view) := by
  obtain ⟨assigned, rest, hle, hle', heq, heq', hleaves⟩ := skipSymbol_append .assign h extra
  rw [parseInitial, parseInitial, heq, heq']
  dsimp only
  split
  · refine .behind hleaves (.parsed (keeps_parseOne hleaves.1) fun value hvalue _ => ?_)
    exact .ok _ (.refl hvalue)
  · exact .ok _ (.refl h)

theorem keeps_parseBareStmt (h : Terminated ts) :
    Keeps ts extra ((parseBareStmt ts).map Parsed.view)
      ((parseBareStmt (ts ++ extra)).map Parsed.view) := by
  obtain ⟨t, rest, rfl⟩ := h.exists_cons
  rw [List.cons_append, parseBareStmt, parseBareStmt]
  cases hword : declareWord? t.kind with
  | some word =>
    have hne : t.kind ≠ .eof := fun ht => by
      rw [ht] at hword
      cases hword
    refine .tail hne (.parsed (keeps_expectToken (h.tail hne) (by simp)) fun name hname _ => ?_)
    refine .followed (keeps_parseInitial hname) fun value hvalue _ => ?_
    exact .ok _ (.refl hvalue)
  | none =>
    dsimp only
    by_cases hreturn : t.kind = .keyword .kwReturn
    · have hne : t.kind ≠ .eof := by simp [hreturn]
      have hrest := h.tail hne
      rw [if_pos hreturn, if_pos hreturn, hrest.current_append]
      split
      · exact .ok _ (.cons hne (.refl hrest))
      · refine .tail hne (.parsed (keeps_parseSequence hrest) fun value hvalue _ => ?_)
        exact .ok _ (.refl hvalue)
    rw [if_neg hreturn, if_neg hreturn]
    by_cases hthrow : t.kind = .keyword .kwThrow
    · have hne : t.kind ≠ .eof := by simp [hthrow]
      rw [if_pos hthrow, if_pos hthrow]
      refine .tail hne (.parsed (keeps_parseSequence (h.tail hne)) fun value hvalue _ => ?_)
      exact .ok _ (.refl hvalue)
    rw [if_neg hthrow, if_neg hthrow]
    by_cases hident : t.kind = .ident
    · have hne : t.kind ≠ .eof := by simp [hident]
      obtain ⟨equals, after, rfl⟩ := (h.tail hne).exists_cons
      by_cases hequals : equals.kind = .symbol .assign
      · have hne' : equals.kind ≠ .eof := by simp [hequals]
        have hafter := (h.tail hne).tail hne'
        simp only [List.cons_append, current, List.tail_cons, hident, hequals, decide_true,
          Bool.and_self, if_true]
        refine .tail hne (.tail hne' (.parsed (keeps_parseOne hafter) fun value hvalue _ => ?_))
        exact .ok _ (.refl hvalue)
      · simp only [List.cons_append, current, hequals, decide_false, Bool.and_false,
          Bool.false_eq_true, if_false]
        refine .parsed (keeps_parseSequence h) fun value hvalue _ => ?_
        exact .ok _ (.refl hvalue)
    · simp only [hident, decide_false, Bool.false_and, Bool.false_eq_true, if_false]
      refine .parsed (keeps_parseSequence h) fun value hvalue _ => ?_
      exact .ok _ (.refl hvalue)

theorem keeps_parseStmt (h : Terminated ts) :
    Keeps ts extra ((parseStmt ts).map Parsed.view)
      ((parseStmt (ts ++ extra)).map Parsed.view) := by
  rw [parseStmt, parseStmt]
  refine .parsed (keeps_parseBareStmt h) fun stmt hstmt _ => ?_
  obtain ⟨closed, rest, hle, hle', heq, heq', hleaves⟩ := skipSymbol_append .semicolon hstmt extra
  rw [heq, heq']
  exact .ok _ hleaves

theorem keeps_parseStmts (stop : Kind) {ts extra : List Token} (h : Terminated ts) :
    Keeps ts extra ((parseStmts stop ts).map Followed.view)
      ((parseStmts stop (ts ++ extra)).map Followed.view) := by
  match ts, h with
  | [], h => cases h
  | t :: rest, h =>
    rw [parseStmts.eq_def stop (t :: rest), List.cons_append,
      parseStmts.eq_def stop (t :: (rest ++ extra))]
    dsimp only
    split
    · exact .ok _ (.refl h)
    · split
      · next hsemicolon =>
        have hne : t.kind ≠ .eof := by simp [hsemicolon]
        refine .tail hne (.followed (keeps_parseStmts stop (h.tail hne)) fun more hmore _ => ?_)
        exact .ok _ (.refl hmore)
      · have hfirst := @keeps_parseStmt _ extra h
        rw [List.cons_append] at hfirst
        refine .parsed hfirst fun stmt hstmt _ => ?_
        have hshort : stmt.rest.length < rest.length + 1 := stmt.shorter
        refine .followed (keeps_parseStmts stop hstmt) fun more hmore _ => ?_
        exact .ok _ (.refl hmore)
termination_by ts.length

theorem keeps_parseBlock (h : Terminated ts) :
    Keeps ts extra ((parseBlock ts).map Parsed.view)
      ((parseBlock (ts ++ extra)).map Parsed.view) := by
  rw [parseBlock, parseBlock]
  refine .parsed (keeps_expectToken h (by simp)) fun opening hopening _ => ?_
  refine .followed (keeps_parseStmts _ hopening) fun body hbody _ => ?_
  refine .parsed (keeps_expectToken hbody (by simp)) fun closing hclosing _ => ?_
  exact .ok _ (.refl hclosing)

theorem keeps_parseMoreNames {ts extra : List Token} (h : Terminated ts) :
    Keeps ts extra ((parseMoreNames ts).map Followed.view)
      ((parseMoreNames (ts ++ extra)).map Followed.view) := by
  match ts, h with
  | [], h => cases h
  | t :: rest, h =>
    rw [List.cons_append, parseMoreNames.eq_def, parseMoreNames.eq_def (t :: (rest ++ extra))]
    dsimp only
    by_cases ht : t.kind = .symbol .comma
    · have hne : t.kind ≠ .eof := by simp [ht]
      rw [if_pos ht, if_pos ht]
      obtain ⟨name, after, rfl⟩ := (h.tail hne).exists_cons
      dsimp only [List.cons_append]
      by_cases hname : name.kind = .ident
      · have hne' : name.kind ≠ .eof := by simp [hname]
        rw [if_pos hname, if_pos hname]
        refine .tail hne (.tail hne' ?_)
        refine .followed (keeps_parseMoreNames ((h.tail hne).tail hne')) fun more hmore _ => ?_
        exact .ok _ (.refl hmore)
      · rw [if_neg hname, if_neg hname]
        exact .error _
    · rw [if_neg ht, if_neg ht]
      exact .ok _ (.refl h)
termination_by ts.length

theorem keeps_parseParams (h : Terminated ts) :
    Keeps ts extra ((parseParams ts).map Parsed.view)
      ((parseParams (ts ++ extra)).map Parsed.view) := by
  rw [parseParams, parseParams]
  refine .parsed (keeps_expectToken h (by simp)) fun opening hopening _ => ?_
  dsimp only
  rw [hopening.current_append]
  split
  · refine .parsed (keeps_expectToken hopening (by simp)) fun closing hclosing _ => ?_
    exact .ok _ (.refl hclosing)
  · refine .parsed (keeps_expectToken hopening (by simp)) fun first hfirst _ => ?_
    refine .followed (keeps_parseMoreNames hfirst) fun more hmore _ => ?_
    refine .parsed (keeps_expectToken hmore (by simp)) fun closing hclosing _ => ?_
    exact .ok _ (.refl hclosing)

theorem keeps_parseArrowBody (h : Terminated ts) :
    Keeps ts extra ((parseArrowBody ts).map Parsed.view)
      ((parseArrowBody (ts ++ extra)).map Parsed.view) := by
  rw [parseArrowBody, parseArrowBody, h.current_append]
  split
  · exact keeps_parseBlock h
  · refine .parsed (keeps_parseOne h) fun value hvalue _ => ?_
    exact .ok _ (.refl hvalue)

theorem Terminated.upcoming_append (h : Terminated ts) (ht : (current ts).kind ≠ .eof)
    (extra : List Token) : upcoming (ts ++ extra) = upcoming ts := by
  cases h with
  | last heof => exact absurd heof ht
  | cons _ h => cases h <;> rfl

theorem keeps_parseArrowParams (h : Terminated ts) :
    Keeps ts extra ((parseArrowParams ts).map Parsed.view)
      ((parseArrowParams (ts ++ extra)).map Parsed.view) := by
  rw [parseArrowParams, parseArrowParams, h.current_append]
  by_cases hident : (current ts).kind = .ident
  · have hne : (current ts).kind ≠ .eof := by simp [hident]
    rw [h.upcoming_append hne]
    split
    · refine .parsed (keeps_expectToken h (by simp)) fun name hname _ => ?_
      exact .ok _ (.refl hname)
    · exact keeps_parseParams h
  · simp only [hident, decide_false, Bool.false_and, Bool.false_eq_true, if_false]
    exact keeps_parseParams h

theorem skipName_append (h : Terminated ts) (extra : List Token) :
    ∃ rest hle hle', skipName ts = ⟨(), rest, hle⟩ ∧ skipName (ts ++ extra) = ⟨(), rest ++ extra, hle'⟩ ∧
      Leaves ts rest := by
  obtain ⟨t, rest, rfl⟩ := h.exists_cons
  rw [List.cons_append, skipName, skipName]
  by_cases ht : t.kind = .ident
  · have hne : t.kind ≠ .eof := by simp [ht]
    rw [if_pos ht, if_pos ht]
    exact ⟨_, _, _, rfl, rfl, .cons hne (.refl (h.tail hne))⟩
  · rw [if_neg ht, if_neg ht]
    exact ⟨_, _, _, rfl, rfl, .refl h⟩

theorem keeps_parseFunctionAt (h : Terminated ts) :
    Keeps ts extra ((parseFunctionAt ts).map Parsed.view)
      ((parseFunctionAt (ts ++ extra)).map Parsed.view) := by
  rw [parseFunctionAt, parseFunctionAt, h.current_append]
  dsimp only
  split
  · exact .error _
  · split
    · refine .parsed (keeps_expectToken h (by simp)) fun word hword _ => ?_
      obtain ⟨rest, hle, hle', heq, heq', hleaves⟩ := skipName_append hword extra
      dsimp only
      rw [heq, heq']
      refine .behind hleaves (.parsed (keeps_parseParams hleaves.1) fun params hparams _ => ?_)
      refine .parsed (keeps_parseBlock hparams) fun body hbody _ => ?_
      exact .ok _ (.refl hbody)
    · refine .parsed (keeps_parseArrowParams h) fun params hparams _ => ?_
      refine .parsed (keeps_expectToken hparams (by simp)) fun arrow harrow _ => ?_
      refine .parsed (keeps_parseArrowBody harrow) fun body hbody _ => ?_
      exact .ok _ (.refl hbody)

/-! ## The parser -/

/-- From `ts` a part of the parser ends the same whatever stands behind these tokens, and if it reads
something then it has taken at least one of them, and not the end of input. -/
def Advances (f : (ts : List Token) → Except ParseError (Parsed α ts)) (ts : List Token) : Prop :=
  ∀ extra, (∃ e, f ts = .error e ∧ f (ts ++ extra) = .error e) ∨
    ∃ a taken rest hlt hlt', f ts = .ok ⟨a, rest, hlt⟩ ∧
      f (ts ++ extra) = .ok ⟨a, rest ++ extra, hlt'⟩ ∧ ts = taken ++ rest ∧ taken ≠ [] ∧
        (∀ t ∈ taken, t.kind ≠ .eof) ∧ Terminated rest

/-- The same of a part that may be empty. -/
def Remains (f : (ts : List Token) → Except ParseError (Followed α ts)) (ts : List Token) : Prop :=
  ∀ extra, (∃ e, f ts = .error e ∧ f (ts ++ extra) = .error e) ∨
    ∃ a taken rest hle hle', f ts = .ok ⟨a, rest, hle⟩ ∧
      f (ts ++ extra) = .ok ⟨a, rest ++ extra, hle'⟩ ∧ ts = taken ++ rest ∧
        (∀ t ∈ taken, t.kind ≠ .eof) ∧ Terminated rest

theorem advances_of_keeps {f : (ts : List Token) → Except ParseError (Parsed α ts)}
    (h : ∀ extra, Keeps ts extra ((f ts).map Parsed.view) ((f (ts ++ extra)).map Parsed.view)) :
    Advances f ts := by
  intro extra
  rcases (h extra).map_cases with herror | ⟨p, ⟨_, _, hlt⟩, hp, hq, heq, hrest, taken, hts, htaken⟩
  · exact Or.inl herror
  · obtain ⟨rfl, rfl⟩ := Prod.mk.inj heq
    refine Or.inr ⟨p.value, taken, p.rest, p.shorter, hlt, hp, hq, hts, ?_, htaken, hrest⟩
    rintro rfl
    exact absurd (congrArg List.length hts) (Nat.ne_of_gt p.shorter)

theorem remains_of_keeps {f : (ts : List Token) → Except ParseError (Followed α ts)}
    (h : ∀ extra, Keeps ts extra ((f ts).map Followed.view) ((f (ts ++ extra)).map Followed.view)) :
    Remains f ts := by
  intro extra
  rcases (h extra).map_cases with herror | ⟨p, ⟨_, _, hle⟩, hp, hq, heq, hrest, taken, hts, htaken⟩
  · exact Or.inl herror
  · obtain ⟨rfl, rfl⟩ := Prod.mk.inj heq
    exact Or.inr ⟨p.value, taken, p.rest, p.noLonger, hle, hp, hq, hts, htaken, hrest⟩

/-- Every part of the parser stays in front of the end of input: it reads no token behind it, does
not take it, and leaves it with what it leaves. Functions, statements and expressions, and what makes
them up, take a token when they are read; only lists and the tails of operators, accesses and lists
may be empty. -/
theorem parser_advances (h : Terminated ts) :
    (Advances parseFunctionAt ts ∧ Advances parseParams ts ∧ Advances parseBlock ts ∧
      Advances parseStmt ts ∧ Advances parseSequence ts ∧ Advances parseOne ts ∧
      (∀ level, Advances (parseLevel level) ts) ∧ Advances parseUnary ts ∧ Advances parsePostfix ts ∧
      Advances parsePrimary ts ∧ Advances parseArgs ts) ∧
    (∀ stop, Remains (parseStmts stop) ts) ∧ Remains parseMoreNames ts ∧ Remains parseMore ts ∧
      (∀ level left, Remains (parseChain level left) ts) ∧
      (∀ target, Remains (parseAccesses target) ts) ∧ Remains parseItems ts ∧ Remains parseEntries ts :=
  ⟨⟨advances_of_keeps fun _ => keeps_parseFunctionAt h,
      advances_of_keeps fun _ => keeps_parseParams h,
      advances_of_keeps fun _ => keeps_parseBlock h,
      advances_of_keeps fun _ => keeps_parseStmt h,
      advances_of_keeps fun _ => keeps_parseSequence h,
      advances_of_keeps fun _ => keeps_parseOne h,
      fun level => advances_of_keeps fun _ => keeps_parseLevel level h,
      advances_of_keeps fun _ => keeps_parseUnary h,
      advances_of_keeps fun _ => keeps_parsePostfix h,
      advances_of_keeps fun _ => keeps_parsePrimary h,
      advances_of_keeps fun _ => keeps_parseArgs h⟩,
    fun stop => remains_of_keeps fun _ => keeps_parseStmts stop h,
    remains_of_keeps fun _ => keeps_parseMoreNames h,
    remains_of_keeps fun _ => keeps_parseMore h,
    fun level left => remains_of_keeps fun _ => keeps_parseChain level left h,
    fun target => remains_of_keeps fun _ => keeps_parseAccesses target h,
    remains_of_keeps fun _ => keeps_parseItems h,
    remains_of_keeps fun _ => keeps_parseEntries h⟩

/-- An access whose name is missing, in front of an end of input that has the text of a name. -/
def openAccess : List Token := [⟨.ident, "x", 0⟩, ⟨.symbol .dot, ".", 1⟩, ⟨.eof, "end", 2⟩]

theorem parser_advances_openAccess : Terminated openAccess ∧
    (parsePostfix openAccess).map Parsed.view =
      .ok (.member (.ident "x") "end", [⟨.eof, "end", 2⟩]) ∧
    Advances parsePostfix openAccess ∧ Remains (parseStmts .eof) openAccess := by
  have h : Terminated openAccess := .cons nofun (.cons nofun (.last rfl))
  refine ⟨h, by cbv, ?_⟩
  obtain ⟨⟨-, -, -, -, -, -, -, -, hsuffixed, -⟩, hstmts, -⟩ := parser_advances h
  exact ⟨hsuffixed, hstmts .eof⟩

/-- The tokens of a text end in the end of input. -/
theorem terminated_of_tokenize {source : String} (h : tokenize source = .ok ts) : Terminated ts := by
  obtain ⟨xs, hxs, hkinds⟩ := lex_eof h
  obtain ⟨front, last, rfl, hfront, hlast⟩ := List.map_eq_append_iff.mp hxs
  obtain ⟨t, rfl, ht⟩ := List.map_eq_singleton_iff.mp hlast
  refine terminated_iff.mpr ⟨front, t, rfl, congrArg Lexeme.kind ht, fun u hu => ?_⟩
  exact hkinds u.lexeme (hfront ▸ List.mem_map_of_mem hu)

end Script
end Vitrine
