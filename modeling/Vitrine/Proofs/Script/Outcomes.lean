import Vitrine.Proofs.Script.Containment
import Vitrine.Proofs.Script.Soundness
import Vitrine.Script.Program

/-!
# How parsing ends

The parser ends in a tree, in an error of its own, or in a fault at an obstacle of the text: a
foreign character, or an integer with more digits than are read (`endsWell_parse`).
-/
namespace Vitrine
namespace Script

variable {α β : Type} {ts : List Token}

/-- Whether an error is no error of the grammar. -/
def ParseError.isFault : ParseError → Bool
  | .fault _ | .lexical (.fault _) => true
  | _ => false

/-- Whether a token is a number that is not read. -/
def Token.IsUnread (t : Token) : Prop :=
  t.kind = .int ∧ Decimal.int? t.text.toList = none ∨
    t.kind = .float ∧ Decimal.float? t.text.toList = none

/-- How reading from `ts` may end: what it leaves was there before, and if it faults there is a
number that is not read. -/
def Within (rest : α → List Token) (ts : List Token) : Except ParseError α → Prop
  | .ok a => rest a ⊆ ts
  | .error e => e.isFault = true → e = .fault .value ∧ ∃ t ∈ ts, t.IsUnread

namespace Within

variable {rest : α → List Token} {rest' : β → List Token}

theorem error {e : ParseError} (h : e.isFault = false) : Within rest ts (.error e) := by
  intro he
  rw [h] at he
  cases he

theorem mono {ts' : List Token} {r : Except ParseError α} (h : Within rest ts r) (hts : ts ⊆ ts') :
    Within rest ts' r := by
  cases r with
  | ok a => exact List.Subset.trans h hts
  | error e =>
    intro he
    obtain ⟨hvalue, t, ht, hunread⟩ := h he
    exact ⟨hvalue, t, hts ht, hunread⟩

/-- A reader that goes on with what another one left. -/
theorem bind {x : Except ParseError α} {f : α → Except ParseError β} (hx : Within rest ts x)
    (hf : ∀ a, Within rest' (rest a) (f a)) : Within rest' ts (x >>= f) := by
  cases x with
  | ok a => exact (hf a).mono hx
  | error e => exact hx

theorem tail {t : Token} {r : Except ParseError α} (h : Within rest ts r) :
    Within rest (t :: ts) r :=
  h.mono (List.subset_cons_self t ts)

end Within

/-! ## Tokens -/

theorem within_expectToken (kind : Kind) (ts : List Token) :
    Within Parsed.rest ts (expectToken kind ts) := by
  cases ts with
  | nil => exact .error rfl
  | cons t ts =>
    rw [expectToken]
    split
    · exact List.subset_cons_self t ts
    · exact .error rfl

theorem skipSymbol_subset (s : Symbol) (ts : List Token) : (skipSymbol s ts).rest ⊆ ts := by
  cases ts with
  | nil => exact List.Subset.refl _
  | cons t ts =>
    rw [skipSymbol]
    split
    · exact List.subset_cons_self t ts
    · exact List.Subset.refl _

theorem beyond_subset (t : Token) (ts : List Token) : beyond t ts ⊆ t :: ts := by
  rw [beyond]
  split
  · exact List.Subset.refl _
  · exact List.subset_cons_self t ts

theorem literalOf?_error {t : Token} {e : ParseError} (h : literalOf? t = some (.error e)) :
    e = .fault .value ∧ t.IsUnread := by
  rw [literalOf?.eq_def] at h
  split at h
  · next hkind =>
    split at h
    · cases h
    · next hint =>
      cases h
      exact ⟨rfl, Or.inl ⟨hkind, hint⟩⟩
  · next hkind =>
    split at h
    · cases h
    · next hfloat =>
      cases h
      exact ⟨rfl, Or.inr ⟨hkind, hfloat⟩⟩
  all_goals cases h

/-! ## Expressions -/

mutual

theorem within_parseSequence (ts : List Token) : Within Parsed.rest ts (parseSequence ts) := by
  rw [parseSequence]
  refine .bind (within_parseOne ts) fun first => ?_
  have hshort := first.shorter
  refine .bind (within_parseMore first.rest) fun others => ?_
  exact List.Subset.refl _
termination_by (ts.length, 12)

theorem within_parseMore (ts : List Token) : Within Followed.rest ts (parseMore ts) := by
  match ts with
  | [] =>
    rw [parseMore]
    exact List.Subset.refl _
  | t :: rest =>
    rw [parseMore]
    split
    · refine .tail (.bind (within_parseOne rest) fun next => ?_)
      have hshort := next.shorter
      refine .bind (within_parseMore next.rest) fun others => ?_
      exact List.Subset.refl _
    · exact List.Subset.refl _
termination_by (ts.length, 0)

theorem within_parseOne (ts : List Token) : Within Parsed.rest ts (parseOne ts) := by
  rw [parseOne]
  refine .bind (within_parseLevel 0 ts) fun condition => ?_
  have hshort := condition.shorter
  dsimp only
  split
  · have hmarked := (skipSymbol .question condition.rest).noLonger
    refine .mono ?_ (skipSymbol_subset .question condition.rest)
    refine .bind (within_parseOne _) fun thenExpr => ?_
    have hthen := thenExpr.shorter
    refine .bind (within_expectToken _ _) fun colon => ?_
    have hcolon := colon.shorter
    refine .bind (within_parseOne _) fun elseExpr => ?_
    exact List.Subset.refl _
  · exact List.Subset.refl _
termination_by (ts.length, 11)

theorem within_parseLevel (level : Nat) (ts : List Token) :
    Within Parsed.rest ts (parseLevel level ts) := by
  rw [parseLevel]
  split
  · refine .bind (within_parseLevel (level + 1) ts) fun first => ?_
    have hshort := first.shorter
    refine .bind (within_parseChain level first.value first.rest) fun chain => ?_
    exact List.Subset.refl _
  · exact within_parseUnary ts
termination_by (ts.length, 4 + (6 - level))

theorem within_parseChain (level : Nat) (left : Expr) (ts : List Token) :
    Within Followed.rest ts (parseChain level left ts) := by
  match ts with
  | [] =>
    rw [parseChain]
    exact List.Subset.refl _
  | t :: rest =>
    rw [parseChain]
    split
    · exact List.Subset.refl _
    · refine .tail (.bind (within_parseLevel (level + 1) rest) fun right => ?_)
      have hshort := right.shorter
      refine .bind (within_parseChain level _ right.rest) fun chain => ?_
      exact List.Subset.refl _
termination_by (ts.length, 0)

theorem within_parseUnary (ts : List Token) : Within Parsed.rest ts (parseUnary ts) := by
  match ts with
  | [] =>
    rw [parseUnary]
    exact within_parsePostfix []
  | t :: rest =>
    rw [parseUnary]
    split
    · refine .tail (.bind (within_parseUnary rest) fun operand => ?_)
      exact List.Subset.refl _
    · exact within_parsePostfix (t :: rest)
termination_by (ts.length, 3)

theorem within_parsePostfix (ts : List Token) : Within Parsed.rest ts (parsePostfix ts) := by
  rw [parsePostfix]
  refine .bind (within_parsePrimary ts) fun first => ?_
  have hshort := first.shorter
  refine .bind (within_parseAccesses first.value first.rest) fun all => ?_
  exact List.Subset.refl _
termination_by (ts.length, 2)

theorem within_parseAccesses (target : Expr) (ts : List Token) :
    Within Followed.rest ts (parseAccesses target ts) := by
  match ts with
  | [] =>
    rw [parseAccesses]
    exact List.Subset.refl _
  | t :: rest =>
    rw [parseAccesses.eq_def]
    dsimp only
    split
    · split
      · exact .error rfl
      · next name after =>
        split
        · have hlen : (beyond name after).length < (t :: name :: after).length :=
            Nat.lt_succ_of_le (beyond_noLonger name after)
          refine .tail (.mono ?_ (beyond_subset name after))
          refine .bind (within_parseAccesses _ (beyond name after)) fun all => ?_
          exact List.Subset.refl _
        · exact .error rfl
    · refine .tail (.bind (within_parseSequence rest) fun index => ?_)
      have hindex := index.shorter
      refine .bind (within_expectToken _ _) fun close => ?_
      have hclose := close.shorter
      refine .bind (within_parseAccesses _ _) fun all => ?_
      exact List.Subset.refl _
    · refine .tail (.bind (within_parseArgs rest) fun args => ?_)
      have hargs := args.shorter
      refine .bind (within_parseAccesses _ _) fun all => ?_
      exact List.Subset.refl _
    · exact List.Subset.refl _
termination_by (ts.length, 1)

theorem within_parseArgs (ts : List Token) : Within Parsed.rest ts (parseArgs ts) := by
  rw [parseArgs]
  dsimp only
  split
  · exact skipSymbol_subset .rparen ts
  · refine .bind (within_parseOne ts) fun first => ?_
    have hshort := first.shorter
    refine .bind (within_parseMore _) fun others => ?_
    refine .bind (within_expectToken _ _) fun close => ?_
    exact List.Subset.refl _
termination_by (ts.length, 12)

theorem within_parsePrimary (ts : List Token) : Within Parsed.rest ts (parsePrimary ts) := by
  match ts with
  | [] =>
    rw [parsePrimary]
    exact .error rfl
  | t :: rest =>
    rw [parsePrimary.eq_def]
    dsimp only
    split
    · refine .tail (.bind (within_parseSequence rest) fun inner => ?_)
      refine .bind (within_expectToken _ _) fun close => ?_
      exact List.Subset.refl _
    · refine .tail (.bind (within_parseItems rest) fun items => ?_)
      refine .bind (within_expectToken _ _) fun close => ?_
      exact List.Subset.refl _
    · refine .tail (.bind (within_parseEntries rest) fun entries => ?_)
      refine .bind (within_expectToken _ _) fun close => ?_
      exact List.Subset.refl _
    · refine .tail (.bind (within_parsePostfix rest) fun inner => ?_)
      exact List.Subset.refl _
    · split
      · exact List.subset_cons_self t rest
      · next e hliteral =>
        obtain ⟨hvalue, hunread⟩ := literalOf?_error hliteral
        exact fun _ => ⟨hvalue, t, List.mem_cons_self, hunread⟩
      · exact .error rfl
termination_by (ts.length, 1)

theorem within_parseItems (ts : List Token) : Within Followed.rest ts (parseItems ts) := by
  rw [parseItems]
  split
  · exact List.Subset.refl _
  · refine .bind (within_parseOne ts) fun first => ?_
    have hshort := first.shorter
    dsimp only
    split
    · have hcomma := (skipSymbol .comma first.rest).noLonger
      refine .mono ?_ (skipSymbol_subset .comma first.rest)
      refine .bind (within_parseItems _) fun others => ?_
      exact List.Subset.refl _
    · exact List.Subset.refl _
termination_by (ts.length, 12)

theorem within_parseEntries (ts : List Token) : Within Followed.rest ts (parseEntries ts) := by
  match ts with
  | [] =>
    rw [parseEntries]
    exact .error rfl
  | key :: rest =>
    by_cases hbrace : key.kind = .symbol .rbrace
    · rw [parseEntries.eq_def]
      dsimp only
      rw [if_pos hbrace]
      exact List.Subset.refl _
    by_cases hkey : IsKey key.kind
    · have hentry : Within Followed.rest rest (parseEntry key rest) := by
        rw [parseEntry]
        dsimp only
        split
        · have hcolon := (skipSymbol .colon rest).noLonger
          refine .mono ?_ (skipSymbol_subset .colon rest)
          refine .bind (within_parseOne _) fun value => ?_
          exact List.Subset.refl _
        · split
          · exact List.Subset.refl _
          · exact .error rfl
      rw [parseEntries_cons hkey]
      refine .tail (.bind hentry fun entry => ?_)
      have hshort := entry.noLonger
      dsimp only
      split
      · have hcomma := (skipSymbol .comma entry.rest).noLonger
        refine .mono ?_ (skipSymbol_subset .comma entry.rest)
        refine .bind (within_parseEntries _) fun others => ?_
        exact List.Subset.refl _
      · exact List.Subset.refl _
    · rw [parseEntries.eq_def]
      dsimp only
      rw [IsKey, not_or, not_or] at hkey
      rw [if_neg hbrace, if_pos (by simp [hkey])]
      exact .error rfl
termination_by (ts.length, 12)

end

/-! ## Statements and functions -/

theorem within_parseInitial (ts : List Token) : Within Followed.rest ts (parseInitial ts) := by
  rw [parseInitial]
  dsimp only
  split
  · refine .mono ?_ (skipSymbol_subset .assign ts)
    refine .bind (within_parseOne _) fun value => ?_
    exact List.Subset.refl _
  · exact List.Subset.refl _

theorem within_parseBareStmt (ts : List Token) : Within Parsed.rest ts (parseBareStmt ts) := by
  cases ts with
  | nil => exact .error rfl
  | cons t rest =>
    rw [parseBareStmt]
    split
    · refine .tail (.bind (within_expectToken .ident rest) fun name => ?_)
      refine .bind (within_parseInitial name.rest) fun value => ?_
      exact List.Subset.refl _
    · split
      · split
        · exact List.subset_cons_self t rest
        · refine .tail (.bind (within_parseSequence rest) fun value => ?_)
          exact List.Subset.refl _
      · split
        · refine .tail (.bind (within_parseSequence rest) fun value => ?_)
          exact List.Subset.refl _
        · split
          · refine .tail (.mono ?_ (List.tail_sublist rest).subset)
            refine .bind (within_parseOne rest.tail) fun value => ?_
            exact List.Subset.refl _
          · refine .bind (within_parseSequence (t :: rest)) fun value => ?_
            exact List.Subset.refl _

theorem within_parseStmt (ts : List Token) : Within Parsed.rest ts (parseStmt ts) := by
  rw [parseStmt]
  refine .bind (within_parseBareStmt ts) fun stmt => ?_
  exact skipSymbol_subset .semicolon stmt.rest

theorem within_parseStmts (stop : Kind) (ts : List Token) :
    Within Followed.rest ts (parseStmts stop ts) := by
  match ts with
  | [] =>
    rw [parseStmts]
    exact List.Subset.refl _
  | t :: rest =>
    rw [parseStmts]
    split
    · exact List.Subset.refl _
    · split
      · refine .tail (.bind (within_parseStmts stop rest) fun more => ?_)
        exact List.Subset.refl _
      · refine .bind (within_parseStmt (t :: rest)) fun stmt => ?_
        have hshort : stmt.rest.length < rest.length + 1 := stmt.shorter
        refine .bind (within_parseStmts stop stmt.rest) fun more => ?_
        exact List.Subset.refl _
termination_by ts.length

theorem within_parseBlock (ts : List Token) : Within Parsed.rest ts (parseBlock ts) := by
  rw [parseBlock]
  refine .bind (within_expectToken _ ts) fun opening => ?_
  refine .bind (within_parseStmts _ opening.rest) fun body => ?_
  refine .bind (within_expectToken _ body.rest) fun closing => ?_
  exact List.Subset.refl _

theorem within_parseMoreNames (ts : List Token) : Within Followed.rest ts (parseMoreNames ts) := by
  match ts with
  | [] =>
    rw [parseMoreNames]
    exact List.Subset.refl _
  | t :: rest =>
    rw [parseMoreNames.eq_def]
    dsimp only
    split
    · split
      · exact .error rfl
      · next name after =>
        split
        · refine .tail (.tail (.bind (within_parseMoreNames after) fun more => ?_))
          exact List.Subset.refl _
        · exact .error rfl
    · exact List.Subset.refl _
termination_by ts.length

theorem within_parseParams (ts : List Token) : Within Parsed.rest ts (parseParams ts) := by
  rw [parseParams]
  refine .bind (within_expectToken _ ts) fun opening => ?_
  dsimp only
  split
  · refine .bind (within_expectToken _ opening.rest) fun closing => ?_
    exact List.Subset.refl _
  · refine .bind (within_expectToken _ opening.rest) fun first => ?_
    refine .bind (within_parseMoreNames first.rest) fun more => ?_
    refine .bind (within_expectToken _ more.rest) fun closing => ?_
    exact List.Subset.refl _

theorem within_parseArrowBody (ts : List Token) : Within Parsed.rest ts (parseArrowBody ts) := by
  rw [parseArrowBody]
  split
  · exact within_parseBlock ts
  · refine .bind (within_parseOne ts) fun value => ?_
    exact List.Subset.refl _

theorem within_parseArrowParams (ts : List Token) :
    Within Parsed.rest ts (parseArrowParams ts) := by
  rw [parseArrowParams]
  split
  · refine .bind (within_expectToken .ident ts) fun name => ?_
    exact List.Subset.refl _
  · exact within_parseParams ts

theorem skipName_subset (ts : List Token) : (skipName ts).rest ⊆ ts := by
  cases ts with
  | nil => exact List.Subset.refl _
  | cons t ts =>
    rw [skipName]
    split
    · exact List.subset_cons_self t ts
    · exact List.Subset.refl _

theorem within_parseFunctionAt (ts : List Token) : Within Parsed.rest ts (parseFunctionAt ts) := by
  rw [parseFunctionAt]
  dsimp only
  split
  · exact .error rfl
  · split
    · refine .bind (within_expectToken _ ts) fun word => ?_
      refine .mono ?_ (skipName_subset word.rest)
      refine .bind (within_parseParams _) fun params => ?_
      refine .bind (within_parseBlock params.rest) fun body => ?_
      exact List.Subset.refl _
    · refine .bind (within_parseArrowParams ts) fun params => ?_
      refine .bind (within_expectToken _ params.rest) fun arrow => ?_
      refine .bind (within_parseArrowBody arrow.rest) fun body => ?_
      exact List.Subset.refl _

/-! ## Whole texts -/

/-- What makes parsing a text end in a fault, and in which. -/
inductive Obstacle (source : String) : Fault → Prop
  /-- A letter or digit sign outside strings and comments with which no token begins. -/
  | foreign {c : Char} (hc : c ∈ bareChars 0 source.toList) (h : isForeign c = true) :
      Obstacle source .assertion
  /-- An integer with more digits than are read. -/
  | tooLong {ts : List Token} {t : Token} (hts : tokenize source = .ok ts) (ht : t ∈ ts)
      (hkind : t.kind = .int) (h : Decimal.digitLimit < t.text.length) : Obstacle source .value

/-- How parsing a text may end. -/
inductive EndsWell (source : String) : Except ParseError α → Prop
  | tree (a : α) : EndsWell source (.ok a)
  | refusal {e : ParseError} (h : e.isFault = false) : EndsWell source (.error e)
  | fault {f : Fault} (h : Obstacle source f) : EndsWell source (.error (.fault f))

variable {source : String}

theorem EndsWell.bind {x : Except ParseError α} {f : α → Except ParseError β}
    (hx : EndsWell source x) (hf : ∀ a, x = .ok a → EndsWell source (f a)) :
    EndsWell source (x >>= f) := by
  cases hx with
  | tree a => exact hf a rfl
  | refusal h => exact .refusal h
  | fault h => exact .fault h

theorem endsWell_tokens (source : String) : EndsWell source (tokens source) := by
  rw [tokens]
  cases htokens : tokenize source with
  | ok ts => exact .tree ts
  | error e =>
    cases e with
    | fault f =>
      obtain ⟨rfl, c, hc, hforeign⟩ := lex_fault htokens
      exact .fault (.foreign hc hforeign)
    | _ => exact .refusal rfl

theorem tokens_eq_ok {ts : List Token} (h : tokens source = .ok ts) : tokenize source = .ok ts := by
  rw [tokens] at h
  split at h
  · next hts =>
    cases h
    exact hts
  · cases h
  · cases h

theorem obstacle_of_unread {t : Token} (hts : tokenize source = .ok ts) (ht : t ∈ ts)
    (h : t.IsUnread) : Obstacle source .value := by
  obtain ⟨hint, hfloat⟩ := isNumeral_of_mem_lex hts ht
  rcases h with ⟨hkind, hnone⟩ | ⟨hkind, hnone⟩
  · obtain ⟨hne, hdigits⟩ := hint hkind
    refine .tooLong hts ht hkind (Nat.lt_of_not_le fun hle => ?_)
    have hsome := Decimal.isSome_int? hne hdigits (by rwa [String.length_toList])
    rw [hnone] at hsome
    cases hsome
  · have hsome := hfloat hkind
    rw [hnone] at hsome
    cases hsome

/-- A reader faults only at the obstacles of the text whose tokens it is given. -/
theorem Within.endsWell {rest : α → List Token} {r : Except ParseError α} (h : Within rest ts r)
    (hts : tokenize source = .ok ts) : EndsWell source r := by
  cases r with
  | ok a => exact .tree a
  | error e =>
    by_cases hfault : e.isFault = true
    · obtain ⟨rfl, t, ht, hunread⟩ := h hfault
      exact .fault (obstacle_of_unread hts ht hunread)
    · exact .refusal (Bool.eq_false_iff.mpr hfault)

theorem endsWell_expectEnd (ts : List Token) : EndsWell source (expectEnd ts) := by
  rw [expectEnd]
  split
  · exact .tree ()
  · exact .refusal rfl

theorem endsWell_parseExpr (source : String) : EndsWell source (parseExpr source) := by
  rw [parseExpr]
  refine .bind (endsWell_tokens source) fun ts hts => ?_
  refine .bind ((within_parseSequence ts).endsWell (tokens_eq_ok hts)) fun e _ => ?_
  exact .bind (endsWell_expectEnd e.rest) fun _ _ => .tree e.value

theorem endsWell_parseStatements (source : String) : EndsWell source (parseStatements source) := by
  rw [parseStatements]
  refine .bind (endsWell_tokens source) fun ts hts => ?_
  refine .bind ((within_parseStmts .eof ts).endsWell (tokens_eq_ok hts)) fun stmts _ => ?_
  exact .bind (endsWell_expectEnd stmts.rest) fun _ _ => .tree stmts.value

theorem endsWell_parseFunction (source : String) : EndsWell source (parseFunction source) := by
  rw [parseFunction]
  refine .bind (endsWell_tokens source) fun ts hts => ?_
  refine .bind ((within_parseFunctionAt ts).endsWell (tokens_eq_ok hts)) fun f _ => ?_
  exact .bind (endsWell_expectEnd (skipSymbol .semicolon f.rest).rest) fun _ _ => .tree f.value

/-! ## Texts without obstacles -/

theorem bareChars_subset (pos : Nat) (cs : List Char) : bareChars pos cs ⊆ cs := by
  fun_induction bareChars pos cs with
  | case1 pos => exact List.Subset.refl _
  | case2 pos c rest hcomment n =>
    rename_i ih
    exact List.Subset.trans ih
      ((List.drop_sublist _ rest).trans (List.sublist_cons_self c rest)).subset
  | case3 => exact List.nil_subset _
  | case4 pos c rest hcomment hquote text stop after hbody hlength ih =>
    exact List.Subset.trans ih ((stringBody_suffix hbody).trans (List.suffix_cons c rest)).subset
  | case5 pos c rest hcomment hquote ih => exact List.cons_subset_cons c ih

/-- No integer is longer than the text that it stands in. -/
theorem length_of_mem_lex {pos : Nat} {cs : List Char} {ts : List Token} (h : lex pos cs = .ok ts)
    {t : Token} (ht : t ∈ ts) (hkind : t.kind = .int) : t.text.length ≤ cs.length := by
  obtain ⟨pos', c, rest, text, hsuffix, htoken, htext⟩ :=
    tokenAtFront_of_mem_lex h ht (by simp [hkind]) (by simp [hkind])
  rw [htext, String.length_ofList]
  exact Nat.le_trans (length_tokenAtFront htoken).2 hsuffix.length_le

theorem not_isForeign_of_lt {c : Char} (h : c.toNat < 128) : isForeign c = false := by
  rw [isForeign]
  split
  · next hsign =>
    rw [Text.isDigitSign, has_digitSignRanges h, Bool.or_false] at hsign
    rw [hsign]
    rfl
  · rw [Text.isLetter, if_pos h, isNameStart]
    cases Text.isAsciiLetter c <;> rfl

/-- Texts of ASCII characters have no obstacles, unless they are long enough for an integer that is
not read. -/
theorem not_obstacle (hascii : ∀ c ∈ source.toList, c.toNat < 128)
    (hshort : source.length ≤ Decimal.digitLimit) (f : Fault) : ¬ Obstacle source f := by
  rintro (@⟨c, hc, hforeign⟩ | @⟨ts, t, hts, ht, hkind, hlong⟩)
  · rw [not_isForeign_of_lt (hascii c (bareChars_subset 0 _ hc))] at hforeign
    cases hforeign
  · have hle := length_of_mem_lex hts ht hkind
    rw [String.length_toList] at hle
    omega

end Script
end Vitrine
