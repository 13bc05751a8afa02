import Vitrine.Proofs.Script.Gaps
import Vitrine.Proofs.Script.Texts
import Vitrine.Script.Shape

/-!
# Heads of function texts

The parser and the shape test look at the beginning of a function text in two ways: the parser at its
tokens, the shape test at its characters. Tokens may have comments between them (`IsGap`), of which the
shape test knows nothing; where no comment comes in its way (`IsVeiled`), it finds what the parser has
found (`isFunctionSource_iff`).
-/
namespace Vitrine
namespace Script

variable {pos : Nat} {cs : List Char} {t : Token} {ts : List Token}

/-! ## Tokens of heads -/

/-- Tokens between the parentheses of a list of parameters. -/
def AreNames (names : List Token) : Prop :=
  ∀ t ∈ names, t.kind = .ident ∨ t.kind = .symbol .comma

/-- The tokens that functions begin with. -/
inductive BeginsFunction : List Token → Prop
  | word {w t : Token} {ts : List Token} (hw : w.kind = .keyword .kwFunction)
      (ht : t.kind = .ident ∨ t.kind = .symbol .lparen) : BeginsFunction (w :: t :: ts)
  | name {n a : Token} {ts : List Token} (hn : n.kind = .ident) (ha : a.kind = .symbol .arrow) :
      BeginsFunction (n :: a :: ts)
  | list {o c a : Token} {names ts : List Token} (ho : o.kind = .symbol .lparen)
      (hnames : AreNames names) (hc : c.kind = .symbol .rparen) (ha : a.kind = .symbol .arrow) :
      BeginsFunction (o :: (names ++ c :: a :: ts))

theorem parseMoreNames_eq_ok {r : Followed (List String) ts} (h : parseMoreNames ts = .ok r) :
    ∃ names, ts = names ++ r.rest ∧ AreNames names := by
  fun_induction parseMoreNames ts with
  | case1 =>
    cases h
    exact ⟨[], rfl, List.forall_mem_nil _⟩
  | case2 => cases h
  | case3 t hcomma name after hname ih =>
    obtain ⟨more, hmore, h⟩ := bind_eq_ok.mp h
    cases h
    obtain ⟨names, hafter, hnames⟩ := ih hmore
    refine ⟨t :: name :: names, congrArg (fun ts => t :: name :: ts) hafter, ?_⟩
    exact List.forall_mem_cons.mpr ⟨Or.inr hcomma, List.forall_mem_cons.mpr ⟨Or.inl hname, hnames⟩⟩
  | case4 => cases h
  | case5 t rest hcomma =>
    cases h
    exact ⟨[], rfl, List.forall_mem_nil _⟩

theorem parseParams_eq_ok {r : Parsed (List String) ts} (h : parseParams ts = .ok r) :
    ∃ o names c, ts = o :: (names ++ c :: r.rest) ∧ o.kind = .symbol .lparen ∧ AreNames names ∧
      c.kind = .symbol .rparen := by
  rw [parseParams] at h
  obtain ⟨o, ho, h⟩ := bind_eq_ok.mp h
  obtain ⟨hts, hopen⟩ := expectToken_cons ho
  dsimp only at h
  split at h
  · obtain ⟨c, hc, h⟩ := bind_eq_ok.mp h
    obtain ⟨hrest, hclose⟩ := expectToken_cons hc
    cases h
    exact ⟨o.value, [], c.value, hts.trans (congrArg (o.value :: ·) hrest), hopen,
      List.forall_mem_nil _, hclose⟩
  · obtain ⟨first, hfirst, h⟩ := bind_eq_ok.mp h
    obtain ⟨more, hmore, h⟩ := bind_eq_ok.mp h
    obtain ⟨c, hc, h⟩ := bind_eq_ok.mp h
    obtain ⟨hrest, hname⟩ := expectToken_cons hfirst
    obtain ⟨names, hnames, hall⟩ := parseMoreNames_eq_ok hmore
    obtain ⟨hbehind, hclose⟩ := expectToken_cons hc
    cases h
    refine ⟨o.value, first.value :: names, c.value, ?_, hopen,
      List.forall_mem_cons.mpr ⟨Or.inl hname, hall⟩, hclose⟩
    dsimp only
    rw [List.cons_append, ← hbehind, ← hnames, ← hrest, ← hts]

theorem skipName_cons {o : Token} {rest : List Token} (h : (skipName ts).rest = o :: rest) :
    ∃ t more, ts = t :: more ∧ (t.kind = .ident ∨ t = o) := by
  cases ts with
  | nil => cases h
  | cons t more =>
    rw [skipName] at h
    split at h
    · next hkind => exact ⟨t, more, rfl, Or.inl hkind⟩
    · exact ⟨t, more, rfl, Or.inr (List.cons.inj h).1⟩

theorem parseFunctionAt_begins {r : Parsed FunctionDef ts} (h : parseFunctionAt ts = .ok r) :
    BeginsFunction ts := by
  rw [parseFunctionAt] at h
  dsimp only at h
  split at h
  · cases h
  split at h
  · obtain ⟨w, hw, h⟩ := bind_eq_ok.mp h
    obtain ⟨hts, hkind⟩ := expectToken_cons hw
    obtain ⟨params, hparams, h⟩ := bind_eq_ok.mp h
    obtain ⟨o, names, c, hrest, hopen, -⟩ := parseParams_eq_ok hparams
    obtain ⟨t, more, hmore, ht⟩ := skipName_cons hrest
    rw [hts, hmore]
    exact .word hkind (ht.imp_right fun ht => by rw [ht]; exact hopen)
  · obtain ⟨params, hparams, h⟩ := bind_eq_ok.mp h
    obtain ⟨a, ha, h⟩ := bind_eq_ok.mp h
    obtain ⟨hrest, harrow⟩ := expectToken_cons ha
    rw [parseArrowParams] at hparams
    split at hparams
    · obtain ⟨n, hn, hparams⟩ := bind_eq_ok.mp hparams
      obtain ⟨hts, hname⟩ := expectToken_cons hn
      cases hparams
      rw [hts, hrest]
      exact .name hname harrow
    · obtain ⟨o, names, c, hts, hopen, hnames, hclose⟩ := parseParams_eq_ok hparams
      rw [hts, hrest]
      exact .list hopen hnames hclose harrow

/-! ## Parentheses -/

/-- Texts without parentheses. -/
def IsFree (cs : List Char) : Prop := ∀ d ∈ cs, d ≠ '(' ∧ d ≠ ')'

instance (cs : List Char) : Decidable (IsFree cs) := inferInstanceAs (Decidable (∀ _ ∈ _, _))

/-- The first parenthesis of a text stands in a comment. -/
structure Conceals (cs before line : List Char) (p : Char) (more : List Char) : Prop where
  eq : cs = before ++ '/' :: '/' :: (line ++ p :: more)
  before : IsFree before
  line : IsFree line ∧ '\n' ∉ line
  paren : p = '(' ∨ p = ')'

/-- No parenthesis is there, or the first one stands in a comment. -/
def IsInner (cs : List Char) : Prop := IsFree cs ∨ ∃ before line p more, Conceals cs before line p more

variable {xs ys : List Char}

theorem IsFree.append (hxs : IsFree xs) (hys : IsFree ys) : IsFree (xs ++ ys) := by
  intro d hd
  rcases List.mem_append.mp hd with hd | hd
  · exact hxs d hd
  · exact hys d hd

theorem isFree_nil : IsFree [] := List.forall_mem_nil _

theorem isFree_of_isNameChar (h : ∀ d ∈ xs, isNameChar d = true) : IsFree xs := by
  intro d hd
  constructor <;> (rintro rfl; exact absurd (h _ hd) (by decide))

theorem IsInner.append (hxs : IsInner xs) (hys : IsInner ys) : IsInner (xs ++ ys) := by
  rcases hxs with hfree | ⟨before, line, p, more, rfl, hbefore, hline, hp⟩
  · rcases hys with hfree' | ⟨before, line, p, more, rfl, hbefore, hline, hp⟩
    · exact Or.inl (hfree.append hfree')
    · exact Or.inr ⟨xs ++ before, line, p, more, by simp, hfree.append hbefore, hline, hp⟩
  · exact Or.inr ⟨before, line, p, more ++ ys, by simp, hbefore, hline, hp⟩

theorem isFree_or_first (cs : List Char) : IsFree cs ∨
    ∃ before p more, cs = before ++ p :: more ∧ IsFree before ∧ (p = '(' ∨ p = ')') := by
  induction cs with
  | nil => exact Or.inl isFree_nil
  | cons d cs ih =>
    by_cases hd : d = '(' ∨ d = ')'
    · exact Or.inr ⟨[], d, cs, rfl, isFree_nil, hd⟩
    · rw [not_or] at hd
      rcases ih with hfree | ⟨before, p, more, rfl, hbefore, hp⟩
      · exact Or.inl (List.forall_mem_cons.mpr ⟨hd, hfree⟩)
      · exact Or.inr ⟨d :: before, p, more, rfl, List.forall_mem_cons.mpr ⟨hd, hbefore⟩, hp⟩

theorem IsGap.isInner {gap : List Char} (h : IsGap gap) : IsInner gap := by
  induction h with
  | nil => exact Or.inl isFree_nil
  | @skip c gap hc _ ih =>
    have hfree : IsFree [c] := by
      intro d hd
      obtain rfl := List.mem_singleton.mp hd
      constructor <;> (rintro rfl; exact absurd hc (by decide))
    exact IsInner.append (Or.inl hfree) ih
  | @comment line gap hline _ ih =>
    rcases isFree_or_first line with hfree | ⟨before, p, more, rfl, hbefore, hp⟩
    · have hall : IsFree (['/', '/'] ++ (line ++ ['\n'])) :=
        IsFree.append (by decide) (hfree.append (by decide))
      have hinner := IsInner.append (Or.inl hall) ih
      simpa using hinner
    · have hnewline : '\n' ∉ before := fun h => hline (List.mem_append_left _ h)
      exact Or.inr ⟨[], before, p, more ++ '\n' :: gap, by simp, isFree_nil, ⟨hbefore, hnewline⟩, hp⟩

/-- What stands between the parentheses of a list of parameters. -/
theorem lex_names {names : List Token} {c : Token} (h : lex pos cs = .ok (names ++ c :: ts))
    (hnames : AreNames names) (hc : c.kind = .symbol .rparen) :
    ∃ inner after, cs = inner ++ ')' :: after ∧ IsInner inner ∧ ∃ pos', lex pos' after = .ok ts := by
  induction names generalizing pos cs with
  | nil =>
    obtain ⟨gap, after, hgap, rfl, hafter⟩ := lex_cons_symbol ")" h hc (by decide)
    exact ⟨gap, after, rfl, hgap.isInner, hafter⟩
  | cons t names ih =>
    obtain ⟨ht, hrest⟩ := List.forall_mem_cons.mp hnames
    have hfirst : ∃ gap word after, IsGap gap ∧ cs = gap ++ (word ++ after) ∧ IsFree word ∧
        ∃ pos', lex pos' after = .ok (names ++ c :: ts) := by
      rcases ht with hname | hcomma
      · obtain ⟨gap, after, hgap, heq, hword, -, -, hafter⟩ := lex_cons_word h (Or.inl hname)
        exact ⟨gap, t.text.toList, after, hgap, heq, isFree_of_isNameChar hword.isNameChar, hafter⟩
      · obtain ⟨gap, after, hgap, heq, hafter⟩ := lex_cons_symbol "," h hcomma (by decide)
        exact ⟨gap, [','], after, hgap, heq, by decide, hafter⟩
    obtain ⟨gap, word, after, hgap, rfl, hword, pos', hafter⟩ := hfirst
    obtain ⟨inner, behind, rfl, hinner, hbehind⟩ := ih hafter hrest
    refine ⟨gap ++ (word ++ inner), behind, by simp, ?_, hbehind⟩
    exact hgap.isInner.append (IsInner.append (Or.inl hword) hinner)

/-! ## What the shape test finds -/

variable {gap blanks inner after rest : List Char} {word : String}

theorem isBlank_of_isSkipped {c : Char} (h : isSkipped c = true) : Text.isBlank c = true := by
  have hall : ∀ c ∈ [' ', '\t', '\n', '\r'], Text.isBlank c = true := by decide
  exact hall c (isSkipped_iff.mp h)

theorem dropBlanks_append {c : Char} (hblanks : AreSkipped blanks) (hc : Text.isBlank c = false)
    (rest : List Char) : Text.dropBlanks (blanks ++ c :: rest) = c :: rest := by
  rw [Text.dropBlanks, List.dropWhile_append_of_pos fun d hd => isBlank_of_isSkipped (hblanks d hd)]
  exact List.dropWhile_cons_of_neg (by simp [hc])

theorem arrowFollows_arrow (hblanks : AreSkipped blanks) (rest : List Char) :
    arrowFollows (blanks ++ '=' :: '>' :: rest) = true := by
  rw [arrowFollows, dropBlanks_append hblanks (by decide)]
  rfl

theorem arrowFollows_comment (hblanks : AreSkipped blanks) (rest : List Char) :
    arrowFollows (blanks ++ '/' :: '/' :: rest) = false := by
  rw [arrowFollows, dropBlanks_append hblanks (by decide)]
  rfl

theorem beginsFunction_comment (rest : List Char) : beginsFunction ('/' :: '/' :: rest) = false := rfl

theorem parenthesized?_eq {p : Char} (hinner : IsFree inner) (hp : p = '(' ∨ p = ')')
    (rest : List Char) : parenthesized? ('(' :: (inner ++ p :: rest)) =
      if p = ')' then some (inner, rest) else none := by
  have htake : (inner ++ p :: rest).takeWhile (fun c => decide (c ≠ '(') && decide (c ≠ ')')) =
      inner := by
    rw [List.takeWhile_append_of_pos fun d hd => by simpa using hinner d hd,
      List.takeWhile_cons_of_neg (by rcases hp with rfl | rfl <;> decide), List.append_nil]
  rw [parenthesized?, htake, List.drop_left]
  rcases hp with rfl | rfl <;> rfl

theorem beginsFunction_list {p : Char} (hinner : IsFree inner) (hp : p = '(' ∨ p = ')')
    (rest : List Char) : beginsFunction ('(' :: (inner ++ p :: rest)) =
      (decide (p = ')') && arrowFollows rest) := by
  have hword : afterFunction? ('(' :: (inner ++ p :: rest)) = none := rfl
  have hname : nameAtFront? isNameChar ('(' :: (inner ++ p :: rest)) = none := rfl
  rw [beginsFunction, hword, hname, parenthesized?_eq hinner hp]
  rcases hp with rfl | rfl
  · rfl
  · simp

theorem isBlank_of_isNameChar {c : Char} (h : isNameChar c = true) : Text.isBlank c = false := by
  have hnat : 36 ≤ c.toNat ∧ c.toNat ≤ 122 := by
    rw [isNameChar, Bool.or_eq_true, isNameStart_iff, isAsciiLetter_iff, Decimal.isAsciiDigit_iff] at h
    rcases h with (h | rfl | rfl) | h
    · omega
    · decide
    · decide
    · omega
  simp only [Text.isBlank, Bool.or_eq_false_iff, Bool.and_eq_false_iff, decide_eq_false_iff_not,
    beq_eq_false_iff_ne]
  omega

theorem isWordChar_of_isNameChar {c : Char} (h : isNameChar c = true) (hc : c ≠ '$') :
    Text.isWordChar c = true := by
  rw [isNameChar, Bool.or_eq_true, isNameStart_iff] at h
  rw [Text.isWordChar]
  rcases h with (h | rfl | rfl) | h
  · simp [Text.isLetter_of_isAsciiLetter h]
  · rfl
  · exact absurd rfl hc
  · simp [h]

/-- A word at the front of a text whose first token is a word is at the front of that. -/
theorem prefix_word {w cs : List Char} (hw : ∀ d ∈ w, isNameChar d = true) (hafter : Breaks after)
    (h : w <+: cs ++ after) : w <+: cs := by
  obtain ⟨rest, heq⟩ := h
  rcases List.append_eq_append_iff.mp heq with ⟨tail, hcs, -⟩ | ⟨tail, rfl, htail⟩
  · exact ⟨tail, hcs.symm⟩
  · cases tail with
    | nil => simp
    | cons d tail =>
      have hd := hafter d (by rw [htail]; rfl)
      rw [hw d (by simp)] at hd
      cases hd

theorem afterWord?_eq {w : String} (hw : ∀ d ∈ w.toList, isNameChar d = true) (hafter : Breaks after)
    (cs : List Char) : afterWord? w (cs ++ after) =
      if w.toList <+: cs then some (cs.drop w.length ++ after) else none := by
  rw [afterWord?]
  by_cases hbegins : w.toList <+: cs
  · have hlength : w.length ≤ cs.length := by
      rw [← String.length_toList]
      exact hbegins.length_le
    rw [if_pos hbegins, if_pos (List.isPrefixOf_iff_prefix.mpr
      (hbegins.trans (List.prefix_append _ _))), List.drop_append_of_le_length hlength]
  · rw [if_neg hbegins, if_neg]
    exact fun h => hbegins (prefix_word hw hafter (List.isPrefixOf_iff_prefix.mp h))

/-- A name is taken for the word `function` only if it goes on with a dollar sign there. -/
theorem afterFunction?_name (hname : IsPlainName word) (hafter : Breaks after) :
    (afterFunction? (word.toList ++ after)).isSome =
      decide ("function$".toList <+: word.toList) := by
  have hw : ∀ d ∈ ("function" : String).toList, isNameChar d = true := by decide
  rw [afterFunction?, afterWord?_eq hw hafter]
  by_cases hbegins : "function".toList <+: word.toList
  · rw [if_pos hbegins]
    obtain ⟨tail, htail⟩ := hbegins
    have hdrop : word.toList.drop ("function" : String).length = tail := by
      rw [← htail]
      rfl
    rw [hdrop, ← htail]
    cases tail with
    | nil =>
      rw [List.append_nil, String.toList_inj] at htail
      have hkind := hname.2
      rw [← htail] at hkind
      exact absurd hkind (by decide)
    | cons d tail =>
      have hd : isNameChar d = true := hname.1.isNameChar d (by rw [← htail]; simp)
      by_cases hdollar : d = '$'
      · subst hdollar
        exact (decide_eq_true ⟨tail, rfl⟩).symm
      · have hnot : ¬ "function$".toList <+: "function".toList ++ d :: tail := by
          rintro ⟨more, hmore⟩
          have hsplit : "function".toList ++ '$' :: more = "function".toList ++ d :: tail := hmore
          exact hdollar (List.cons.inj (List.append_cancel_left hsplit)).1.symm
        rw [decide_eq_false hnot]
        show (if Text.isWordChar d = true then none else some (d :: (tail ++ after))).isSome = false
        rw [if_pos (isWordChar_of_isNameChar hd hdollar)]
        rfl
  · have hnot : ¬ "function$".toList <+: word.toList := fun h =>
      hbegins ((show "function".toList <+: "function$".toList by decide).trans h)
    rw [if_neg hbegins, decide_eq_false hnot]
    rfl

theorem beginsFunction_name (hname : IsPlainName word) (hafter : Breaks after) :
    beginsFunction (word.toList ++ after) =
      (decide ("function$".toList <+: word.toList) || arrowFollows after) := by
  obtain ⟨c, cs, hcs, hc, hchars⟩ := hname.1
  have hlist : parenthesized? (word.toList ++ after) = none := by
    rw [hcs, List.cons_append, parenthesized?]
    rintro rest heq
    rw [(List.cons.inj heq).1] at hc
    cases hc
  have htake : (cs ++ after).takeWhile isNameChar = cs := Text.takeWhile_front hchars hafter
  have hat : nameAtFront? isNameChar (word.toList ++ after) = some (word.toList, after) := by
    rw [hcs, List.cons_append, nameAtFront?, if_pos hc]
    dsimp only
    rw [htake, List.drop_left]
  rw [beginsFunction, afterFunction?_name hname hafter, hlist, hat]
  simp

/-! ## Veiled heads -/

/-- A comment hides the beginning of a function from the shape test. -/
inductive IsVeiled : List Char → Prop
  /-- It stands in front of everything. -/
  | front (rest : List Char) : IsVeiled ('/' :: '/' :: rest)
  /-- It stands between the only parameter and the arrow, and the parameter does not pass for the word
  `function`. -/
  | name {word : String} {blanks : List Char} (hname : IsPlainName word)
      (hfunction : ¬ "function$".toList <+: word.toList) (hblanks : AreSkipped blanks)
      (rest : List Char) : IsVeiled (word.toList ++ (blanks ++ '/' :: '/' :: rest))
  /-- It stands between the list of parameters and the arrow. -/
  | list {inner blanks : List Char} (hinner : IsFree inner) (hblanks : AreSkipped blanks)
      (rest : List Char) : IsVeiled ('(' :: (inner ++ ')' :: (blanks ++ '/' :: '/' :: rest)))
  /-- It holds the first parenthesis in the list of parameters, and no arrow is behind that. -/
  | parenthesis {cs before line : List Char} {p : Char} {more : List Char}
      (h : Conceals cs before line p more) (hp : p = ')' → arrowFollows more = false) :
      IsVeiled ('(' :: cs)

theorem breaks_comment (hblanks : AreSkipped blanks) (rest : List Char) :
    Breaks (blanks ++ '/' :: '/' :: rest) := by
  intro d hd
  have hall : ∀ c ∈ [' ', '\t', '\n', '\r', '/'], isNameChar c = false := by decide
  refine hall d ?_
  cases blanks with
  | nil =>
    rw [← Option.some.inj hd]
    decide
  | cons b blanks =>
    have hb := isSkipped_iff.mp (hblanks b List.mem_cons_self)
    rw [← Option.some.inj hd]
    exact List.mem_append_left ['/'] hb

/-- Behind the word `async` there may be a function, but no comment. -/
theorem afterAsync?_name (hname : IsName word) (hblanks : AreSkipped blanks) (rest : List Char) :
    (afterAsync? (word.toList ++ (blanks ++ '/' :: '/' :: rest))).any beginsFunction = false := by
  have hw : ∀ d ∈ ("async" : String).toList, isNameChar d = true := by decide
  rw [afterAsync?, afterWord?_eq hw (breaks_comment hblanks rest)]
  by_cases hbegins : "async".toList <+: word.toList
  · rw [if_pos hbegins]
    obtain ⟨tail, htail⟩ := hbegins
    have hdrop : word.toList.drop ("async" : String).length = tail := by
      rw [← htail]
      rfl
    rw [hdrop]
    cases tail with
    | nil =>
      cases blanks with
      | nil => rfl
      | cons b blanks =>
        obtain ⟨hb, hblanks⟩ := List.forall_mem_cons.mp hblanks
        show Option.any beginsFunction (if Text.isBlank b = true then
          some (Text.dropBlanks (blanks ++ '/' :: '/' :: rest)) else none) = false
        rw [if_pos (isBlank_of_isSkipped hb), dropBlanks_append hblanks (by decide)]
        exact beginsFunction_comment rest
    | cons d tail =>
      have hd : isNameChar d = true := hname.isNameChar d (by rw [← htail]; simp)
      show Option.any beginsFunction (if Text.isBlank d = true then
        some (Text.dropBlanks (tail ++ (blanks ++ '/' :: '/' :: rest))) else none) = false
      rw [isBlank_of_isNameChar hd]
      rfl
  · rw [if_neg hbegins]
    rfl

theorem Conceals.append {before line more : List Char} {p : Char}
    (h : Conceals cs before line p more) (rest : List Char) :
    Conceals (cs ++ rest) before line p (more ++ rest) := by
  obtain ⟨rfl, hbefore, hline, hp⟩ := h
  exact ⟨by simp, hbefore, hline, hp⟩

theorem Conceals.beginsFunction {before line more : List Char} {p : Char}
    (h : Conceals cs before line p more) :
    Script.beginsFunction ('(' :: cs) = (decide (p = ')') && arrowFollows more) := by
  obtain ⟨rfl, hbefore, hline, hp⟩ := h
  have hslashes : IsFree ['/', '/'] := by decide
  have hfree : IsFree (before ++ '/' :: '/' :: line) := hbefore.append (hslashes.append hline.1)
  have hcs : '(' :: (before ++ '/' :: '/' :: (line ++ p :: more)) =
      '(' :: ((before ++ '/' :: '/' :: line) ++ p :: more) := by simp
  rw [hcs, beginsFunction_list hfree hp]

/-- The shape test takes no veiled text for a function. -/
theorem IsVeiled.refused (h : IsVeiled cs) :
    ((afterAsync? cs).any beginsFunction || beginsFunction cs) = false := by
  cases h with
  | front rest => rfl
  | name hname hfunction hblanks rest =>
    rw [afterAsync?_name hname.1 hblanks, beginsFunction_name hname (breaks_comment hblanks rest),
      arrowFollows_comment hblanks, decide_eq_false hfunction]
    rfl
  | list hinner hblanks rest =>
    rw [beginsFunction_list hinner (Or.inr rfl), arrowFollows_comment hblanks]
    rfl
  | parenthesis h hp =>
    rw [Bool.or_eq_false_iff]
    refine ⟨rfl, ?_⟩
    rw [h.beginsFunction]
    rcases h.paren with rfl | rfl
    · rfl
    · rw [hp rfl]
      rfl

/-! ## Heads that are found -/

theorem eq_function_of_kind (h : kindOfWord word = .keyword .kwFunction) : word = "function" := by
  have htable : ∀ e ∈ keywordTable, e.2 = .kwFunction → e.1 = "function" := by decide
  rw [kindOfWord] at h
  split at h
  · next k hk =>
    obtain ⟨front, back, htab, -⟩ := List.lookup_eq_some_iff.mp hk
    refine htable (word, k) ?_ (Kind.keyword.inj h)
    rw [htab]
    exact List.mem_append_right _ List.mem_cons_self
  · cases h

theorem IsGap.isWordChar {c : Char} (h : IsGap (c :: gap)) : Text.isWordChar c = false := by
  have hmarks : ∀ c ∈ [' ', '\t', '\n', '\r', '/'], Text.isWordChar c = false := by decide
  rcases h.head with hskip | rfl
  · exact hmarks c (List.mem_append_left ['/'] (isSkipped_iff.mp hskip))
  · exact hmarks '/' (by decide)

/-- The word `function` ends where a name or a list begins. -/
theorem afterFunction?_word (hafter : Breaks after) (h : lex pos after = .ok (t :: ts))
    (ht : t.kind = .ident ∨ t.kind = .symbol .lparen) :
    (afterFunction? ("function".toList ++ after)).isSome = true := by
  have hword : ∀ c, after.head? = some c → Text.isWordChar c = false := by
    rcases ht with ht | ht
    · obtain ⟨gap, more, hgap, rfl, ⟨d, ds, hname, hd, -⟩, -⟩ := lex_cons_word h (Or.inl ht)
      cases gap with
      | nil =>
        -- a name directly behind the word would belong to it
        have hchar := hafter d (by rw [hname]; rfl)
        rw [isNameChar, hd] at hchar
        cases hchar
      | cons c gap =>
        rintro c' hc
        rw [← Option.some.inj hc]
        exact hgap.isWordChar
    · obtain ⟨gap, more, hgap, rfl, -⟩ := lex_cons_symbol "(" h ht (by decide)
      rintro c' hc
      cases gap with
      | nil =>
        rw [← Option.some.inj hc]
        decide
      | cons c gap =>
        rw [← Option.some.inj hc]
        exact hgap.isWordChar
  cases after with
  | nil => rfl
  | cons c rest =>
    show (if Text.isWordChar c = true then none else some (c :: rest)).isSome = true
    rw [hword c rfl]
    rfl

/-- Nothing but a comment is in front of the first token of a text that does not begin with a blank. -/
theorem IsGap.front (h : IsGap gap) (hfront : ∀ c, (gap ++ rest).head? = some c → isSkipped c = false) :
    gap = [] ∨ IsVeiled (gap ++ rest) := by
  cases h with
  | nil => exact Or.inl rfl
  | @skip c gap hc =>
    rw [hfront c rfl] at hc
    cases hc
  | comment => exact Or.inr (.front _)

/-- An arrow follows, or a comment is in front of it. -/
theorem arrow_or_comment (h : lex pos cs = .ok (t :: ts)) (ht : t.kind = .symbol .arrow) :
    arrowFollows cs = true ∨ ∃ blanks rest, AreSkipped blanks ∧ cs = blanks ++ '/' :: '/' :: rest := by
  obtain ⟨gap, rest, hgap, rfl, -⟩ := lex_cons_symbol "=>" h ht (by decide)
  rcases hgap.skipped_or_comment with hskipped | ⟨blanks, more, hblanks, rfl⟩
  · exact Or.inl (arrowFollows_arrow hskipped rest)
  · exact Or.inr ⟨blanks, more ++ ("=>".toList ++ rest), hblanks, by simp⟩

/-- The head of a function with a name for its only parameter. -/
theorem name_begins_or_veiled (hname : IsPlainName word) (hafter : Breaks after)
    (h : lex pos after = .ok (t :: ts)) (ht : t.kind = .symbol .arrow) :
    beginsFunction (word.toList ++ after) = true ∨ IsVeiled (word.toList ++ after) := by
  rw [beginsFunction_name hname hafter]
  rcases arrow_or_comment h ht with harrow | ⟨blanks, rest, hblanks, rfl⟩
  · exact Or.inl (by rw [harrow, Bool.or_true])
  · by_cases hfunction : "function$".toList <+: word.toList
    · exact Or.inl (by rw [decide_eq_true hfunction, Bool.true_or])
    · exact Or.inr (.name hname hfunction hblanks rest)

/-- The head of a function with a list of parameters. -/
theorem list_begins_or_veiled (hinner : IsInner inner) (h : lex pos after = .ok (t :: ts))
    (ht : t.kind = .symbol .arrow) :
    beginsFunction ('(' :: (inner ++ ')' :: after)) = true ∨
      IsVeiled ('(' :: (inner ++ ')' :: after)) := by
  rcases hinner with hfree | ⟨before, line, p, more, hconceals⟩
  · rw [beginsFunction_list hfree (Or.inr rfl)]
    rcases arrow_or_comment h ht with harrow | ⟨blanks, rest, hblanks, rfl⟩
    · exact Or.inl (by rw [harrow]; rfl)
    · exact Or.inr (.list hfree hblanks rest)
  · have hall := hconceals.append (')' :: after)
    rw [hall.beginsFunction]
    by_cases hp : p = ')' ∧ arrowFollows (more ++ ')' :: after) = true
    · exact Or.inl (by rw [hp.2, decide_eq_true hp.1]; rfl)
    · refine Or.inr (.parenthesis hall fun hparen => ?_)
      rw [← Bool.not_eq_true]
      exact fun harrow => hp ⟨hparen, harrow⟩

/-- The beginning of a function is found, or a comment hides it. -/
theorem begins_or_veiled (h : lex pos cs = .ok ts) (hbegins : BeginsFunction ts)
    (hfront : ∀ c, cs.head? = some c → isSkipped c = false) :
    beginsFunction cs = true ∨ IsVeiled cs := by
  cases hbegins with
  | word hw ht =>
    obtain ⟨gap, after, hgap, rfl, -, hkind, hbreaks, pos', hafter⟩ := lex_cons_word h (Or.inr ⟨_, hw⟩)
    rcases hgap.front hfront with rfl | hveiled
    · rw [List.nil_append, eq_function_of_kind (hkind.trans hw), beginsFunction,
        afterFunction?_word hbreaks hafter ht]
      exact Or.inl rfl
    · exact Or.inr hveiled
  | name hn ha =>
    obtain ⟨gap, after, hgap, rfl, hname, hkind, hbreaks, pos', hafter⟩ := lex_cons_word h (Or.inl hn)
    rcases hgap.front hfront with rfl | hveiled
    · exact name_begins_or_veiled ⟨hname, hkind.trans hn⟩ hbreaks hafter ha
    · exact Or.inr hveiled
  | list ho hnames hc ha =>
    obtain ⟨gap, after, hgap, rfl, pos', hafter⟩ := lex_cons_symbol "(" h ho (by decide)
    obtain ⟨inner, behind, rfl, hinner, pos'', hbehind⟩ := lex_names hafter hnames hc
    rcases hgap.front hfront with rfl | hveiled
    · exact list_begins_or_veiled hinner hbehind ha
    · exact Or.inr hveiled

/-- Of the texts that are functions, the shape test takes for functions those whose head no comment
hides. -/
theorem isFunctionSource_iff {text : String} {f : FunctionDef} (h : parseFunction text = .ok f)
    (hfront : ∀ c, text.toList.head? = some c → Text.isBlank c = false) :
    isFunctionSource text = true ↔ ¬ IsVeiled text.toList := by
  rw [parseFunction] at h
  obtain ⟨ts, hts, h⟩ := bind_eq_ok.mp h
  obtain ⟨r, hr, -⟩ := bind_eq_ok.mp h
  have hblanks : Text.dropBlanks text.toList = text.toList := by
    cases hcs : text.toList with
    | nil => rfl
    | cons c cs => exact List.dropWhile_cons_of_neg (by simp [hfront c (by rw [hcs]; rfl)])
  have hskip : ∀ c, text.toList.head? = some c → isSkipped c = false := by
    intro c hc
    rw [← Bool.not_eq_true]
    intro hs
    have hblank := hfront c hc
    rw [isBlank_of_isSkipped hs] at hblank
    cases hblank
  rw [isFunctionSource, hblanks]
  constructor
  · intro hsource hveiled
    rw [hveiled.refused] at hsource
    cases hsource
  · intro hbare
    have hbegins := begins_or_veiled (lex_of_tokens hts) (parseFunctionAt_begins hr) hskip
    rw [hbegins.resolve_right hbare, Bool.or_true]

end Script
end Vitrine
