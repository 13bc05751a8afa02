import Mathlib
import Vitrine.Script.Lexer

/-!
# Tokens of joined texts

A text with a break behind it has the tokens that it has alone, and the tokens of what follows come
after them (`lex_append`). Only a comment at its end has to be closed by the break.
-/
namespace Vitrine
namespace Script

/-- Characters that continue no token. -/
def breaks : List Char := [' ', '\t', '\n', '\r', ',', ';', ':', '(', ')', '[', ']', '\x7b',
  '\x7d']

section Append

variable {s : Char} {cs : List Char}

theorem takeWhile_break {p : Char → Bool} (hp : p s = false) (cs more : List Char) :
    (cs ++ s :: more).takeWhile p = cs.takeWhile p := by
  induction cs with
  | nil => rw [List.nil_append, List.takeWhile_cons_of_neg (by simp [hp]), List.takeWhile_nil]
  | cons c cs ih =>
    rw [List.cons_append, List.takeWhile_cons, List.takeWhile_cons, ih]

theorem find?_congr {α : Type} {p q : α → Bool} {l : List α} (h : ∀ a ∈ l, p a = q a) :
    l.find? p = l.find? q := by
  induction l with
  | nil => rfl
  | cons a l ih =>
    rw [List.find?_cons, List.find?_cons, h a List.mem_cons_self,
      ih fun b hb => h b (List.mem_cons_of_mem _ hb)]

/-- A break is no digit, no character of a name and no part of a number. -/
structure IsBreak (s : Char) : Prop where
  name : isNameChar s = false
  digit : Text.isDecimalDigit s = false
  point : s ≠ '.'
  exponent : s ≠ 'e' ∧ s ≠ 'E'
  sign : s ≠ '+' ∧ s ≠ '-'
  slash : s ≠ '/'
  symbol : ∀ e ∈ symbolTable, s ∉ e.1.toList.tail

theorem isBreak_of_mem (hs : s ∈ breaks) : IsBreak s := by
  have hall : ∀ s ∈ breaks, isNameChar s = false ∧ Text.isDecimalDigit s = false ∧ s ≠ '.' ∧
      (s ≠ 'e' ∧ s ≠ 'E') ∧ (s ≠ '+' ∧ s ≠ '-') ∧ s ≠ '/' ∧
        ∀ e ∈ symbolTable, s ∉ e.1.toList.tail := by decide
  obtain ⟨h1, h2, h3, h4, h5, h6, h7⟩ := hall s hs
  exact ⟨h1, h2, h3, h4, h5, h6, h7⟩

variable (hs : IsBreak s) (more : List Char)
include hs

theorem digitsAtFront_append (cs : List Char) :
    digitsAtFront (cs ++ s :: more) = digitsAtFront cs := takeWhile_break hs.digit cs more

theorem fractionAtFront_append (cs : List Char) :
    fractionAtFront (cs ++ s :: more) = fractionAtFront cs := by
  cases cs with
  | nil =>
    rw [List.nil_append, fractionAtFront.eq_def, fractionAtFront.eq_def]
    split
    · next h => exact absurd (List.cons.inj h).1 hs.point
    · rfl
  | cons c cs =>
    rw [List.cons_append, fractionAtFront.eq_def, fractionAtFront.eq_def]
    split
    · next ds h =>
      obtain ⟨rfl, rfl⟩ := List.cons.inj h
      simp only [digitsAtFront_append hs more cs]
    · next h =>
      split
      · next ds h' =>
        obtain ⟨rfl, rfl⟩ := List.cons.inj h'
        exact absurd rfl (h _)
      · rfl

theorem exponentAtFront_append (cs : List Char) :
    exponentAtFront (cs ++ s :: more) = exponentAtFront cs := by
  match cs with
  | [] =>
    show exponentAtFront (s :: more) = []
    rw [exponentAtFront.eq_def]
    dsimp only
    rw [if_neg (by simp [hs.exponent])]
  | [e] =>
    show exponentAtFront (e :: s :: more) = exponentAtFront [e]
    have hdigits : digitsAtFront (s :: more) = [] := digitsAtFront_append hs more []
    rw [exponentAtFront, exponentAtFront]
    simp only [hs.sign.1, hs.sign.2, hdigits, decide_false, Bool.or_self, Bool.false_eq_true,
      if_false, List.isEmpty_nil, if_true]
  | e :: c :: rest =>
    have hrest := digitsAtFront_append hs more rest
    have hall := digitsAtFront_append hs more (c :: rest)
    rw [List.cons_append] at hall
    rw [List.cons_append, List.cons_append, exponentAtFront, exponentAtFront]
    simp only [hrest, hall]

omit hs in
theorem drop_append_of_le {n : Nat} (h : n ≤ cs.length) :
    (cs ++ s :: more).drop n = cs.drop n ++ s :: more := by
  rw [List.drop_append_of_le_length h]

omit hs in
theorem length_digitsAtFront_le (cs : List Char) : (digitsAtFront cs).length ≤ cs.length :=
  (List.takeWhile_prefix _).length_le

omit hs in
theorem length_fractionAtFront_le (cs : List Char) : (fractionAtFront cs).length ≤ cs.length := by
  rw [fractionAtFront.eq_def]
  split
  · next ds =>
    have h := length_digitsAtFront_le ds
    dsimp only
    split
    · exact Nat.zero_le _
    · exact Nat.succ_le_succ h
  · exact Nat.zero_le _

omit hs in
theorem length_exponentAtFront_le (cs : List Char) : (exponentAtFront cs).length ≤ cs.length := by
  match cs with
  | [] => exact Nat.le_refl 0
  | [e] =>
    rw [exponentAtFront]
    split <;> exact Nat.zero_le _
  | e :: c :: rest =>
    have hrest := length_digitsAtFront_le rest
    have hall := length_digitsAtFront_le (c :: rest)
    rw [exponentAtFront]
    dsimp only
    repeat' split
    all_goals simp only [List.length_nil, List.length_cons] at *
    all_goals omega

theorem numberAtFront_append (cs : List Char) :
    numberAtFront (cs ++ s :: more) = numberAtFront cs := by
  have hwhole := digitsAtFront_append hs more cs
  have hle := length_digitsAtFront_le cs
  have hfraction := fractionAtFront_append hs more (cs.drop (digitsAtFront cs).length)
  have hle' : (digitsAtFront cs).length +
      (fractionAtFront (cs.drop (digitsAtFront cs).length)).length ≤ cs.length := by
    have h := length_fractionAtFront_le (cs.drop (digitsAtFront cs).length)
    rw [List.length_drop] at h
    omega
  simp only [numberAtFront, hwhole, drop_append_of_le more hle, hfraction,
    drop_append_of_le more hle', exponentAtFront_append hs more]

omit hs in
theorem isPrefixOf_append {text : List Char} (ht : s ∉ text) (cs : List Char) :
    text.isPrefixOf (cs ++ s :: more) = text.isPrefixOf cs := by
  induction text generalizing cs with
  | nil => rfl
  | cons x text ih =>
    rw [List.mem_cons, not_or] at ht
    cases cs with
    | nil =>
      rw [List.nil_append, List.isPrefixOf_cons_cons, beq_eq_false_iff_ne.mpr (Ne.symm ht.1)]
      rfl
    | cons c cs => rw [List.cons_append, List.isPrefixOf_cons_cons, List.isPrefixOf_cons_cons, ih ht.2]

theorem symbolAtFront_append (c : Char) (cs : List Char) :
    symbolAtFront (c :: cs ++ s :: more) = symbolAtFront (c :: cs) := by
  have hsame : ∀ e ∈ symbolTable,
      e.1.toList.isPrefixOf (c :: cs ++ s :: more) = e.1.toList.isPrefixOf (c :: cs) := by
    intro e he
    have htail := hs.symbol e he
    cases hchars : e.1.toList with
    | nil => rfl
    | cons x text =>
      rw [hchars, List.tail_cons] at htail
      rw [List.cons_append, List.isPrefixOf_cons_cons, List.isPrefixOf_cons_cons,
        isPrefixOf_append more htail]
  exact find?_congr hsame

/-- The token at the front is the same with a break somewhere behind it. -/
theorem tokenAtFront_append (pos : Nat) (c : Char) (cs : List Char) :
    tokenAtFront pos c (cs ++ s :: more) = tokenAtFront pos c cs := by
  have hnumber := numberAtFront_append hs more (c :: cs)
  have hword := takeWhile_break hs.name cs more
  have hsymbol := symbolAtFront_append hs more c cs
  rw [List.cons_append] at hnumber hsymbol
  rw [tokenAtFront, tokenAtFront, hnumber, hword, hsymbol]

end Append

/-! ## Where a token ends -/

theorem length_numberAtFront {c : Char} (hc : Text.isDecimalDigit c = true) (cs : List Char) :
    1 ≤ (numberAtFront (c :: cs)).2.length ∧
      (numberAtFront (c :: cs)).2.length ≤ cs.length + 1 := by
  have hwhole : 1 ≤ (digitsAtFront (c :: cs)).length := by
    rw [digitsAtFront, List.takeWhile_cons_of_pos hc]
    exact Nat.succ_le_succ (Nat.zero_le _)
  have hle := length_digitsAtFront_le (c :: cs)
  have hfraction := length_fractionAtFront_le ((c :: cs).drop (digitsAtFront (c :: cs)).length)
  have hexponent := length_exponentAtFront_le ((c :: cs).drop ((digitsAtFront (c :: cs)).length +
    (fractionAtFront ((c :: cs).drop (digitsAtFront (c :: cs)).length)).length))
  rw [List.length_drop] at hfraction hexponent
  rw [List.length_cons] at hle hfraction hexponent
  simp only [numberAtFront, List.length_append]
  omega

theorem symbol_of_symbolAtFront {cs : List Char} {text : String} {s : Symbol}
    (h : symbolAtFront cs = some (text, s)) : text.toList <+: cs ∧ text.toList ≠ [] := by
  have hne : ∀ e ∈ symbolTable, e.1.toList ≠ [] := by decide
  have hfront : text.toList.isPrefixOf cs = true :=
    List.find?_some (p := fun e : String × Symbol => e.1.toList.isPrefixOf cs) h
  exact ⟨List.isPrefixOf_iff_prefix.mp hfront, hne _ (List.mem_of_find?_eq_some h)⟩

/-- A token has at least one character, and none beyond the end. -/
theorem length_tokenAtFront {pos : Nat} {c : Char} {cs text : List Char} {kind : Kind}
    (h : tokenAtFront pos c cs = .ok (kind, text)) :
    1 ≤ text.length ∧ text.length ≤ cs.length + 1 := by
  rw [tokenAtFront] at h
  split at h
  · split at h
    · next hdigit =>
      have hlength := length_numberAtFront hdigit cs
      rw [Except.ok.inj h] at hlength
      exact hlength
    · cases h
  · split at h
    · split at h
      · cases h
        have hle := (List.takeWhile_prefix isNameChar (l := cs)).length_le
        rw [List.length_cons]
        omega
      · cases h
    · split at h
      · next word s hsymbol =>
        cases h
        obtain ⟨hfront, hne⟩ := symbol_of_symbolAtFront hsymbol
        have hpos := List.length_pos_iff.mpr hne
        have hle := hfront.length_le
        rw [List.length_cons] at hle
        omega
      · cases h

theorem stringBody_cons {c : Char} (hback : c ≠ '\\') (hnewline : c ≠ '\n') (quote : Char)
    (start pos : Nat) (cs : List Char) :
    stringBody quote start pos (c :: cs) =
      if c = quote then .ok ([], pos + 1, cs)
      else do
        let (text, stop, rest) ← stringBody quote start (pos + 1) cs
        return (c :: text, stop, rest) := by
  rw [stringBody, if_neg hnewline]
  · exact fun h => absurd h hback
  · exact fun _ _ h => absurd h hback

/-- The content of a string does not depend on what follows it. -/
theorem stringBody_append {quote : Char} {start pos stop : Nat} {cs text rest : List Char}
    (h : stringBody quote start pos cs = .ok (text, stop, rest)) (more : List Char) :
    stringBody quote start pos (cs ++ more) = .ok (text, stop, rest ++ more) ∧
      stop + rest.length = pos + cs.length := by
  fun_induction stringBody quote start pos cs generalizing text stop rest with
  | case1 => cases h
  | case2 => cases h
  | case3 pos c cs ih =>
    rcases hb : stringBody quote start (pos + 2) cs with e | ⟨t, p, r⟩
    · rw [hb] at h
      cases h
    · rw [hb] at h
      cases h
      obtain ⟨happend, hlength⟩ := ih hb
      constructor
      · show stringBody quote start pos ('\\' :: c :: (cs ++ more)) = _
        rw [stringBody, happend]
        rfl
      · rw [List.length_cons, List.length_cons]
        omega
  | case4 => cases h
  | case5 pos cs hend hmore hnewline =>
    cases h
    have hback : quote ≠ '\\' := by
      intro hq
      cases cs with
      | nil => exact hend hq rfl
      | cons c cs => exact hmore c cs hq rfl
    refine ⟨?_, by rw [List.length_cons]; omega⟩
    rw [List.cons_append, stringBody_cons hback hnewline, if_pos rfl]
  | case6 pos c cs hend hmore hnewline hquote ih =>
    rcases hb : stringBody quote start (pos + 1) cs with e | ⟨t, p, r⟩
    · rw [hb] at h
      cases h
    · rw [hb] at h
      cases h
      obtain ⟨happend, hlength⟩ := ih hb
      have hback : c ≠ '\\' := by
        intro hq
        cases cs with
        | nil => exact hend hq rfl
        | cons d ds => exact hmore d ds hq rfl
      constructor
      · rw [List.cons_append, stringBody_cons hback hnewline, if_neg hquote, happend]
        rfl
      · rw [List.length_cons]
        omega

/-! ## Texts one after the other -/

/-- Whether a text ends inside of a comment, which hides what is put behind it. -/
def endsInComment (pos : Nat) (cs : List Char) : Bool :=
  match cs with
  | [] => false
  | c :: rest =>
    if isSkipped c then endsInComment (pos + 1) rest
    else if c = '/' && rest.head? = some '/' then
      let n := commentLength (c :: rest)
      !rest.contains '\n' || endsInComment (pos + n) (rest.drop (n - 1))
    else if c = '"' || c = '\'' then
      match h : stringBody c pos (pos + 1) rest with
      | .error _ => false
      | .ok (_, stop, after) =>
        have := stringBody_length h
        endsInComment stop after
    else
      match tokenAtFront pos c rest with
      | .error _ => false
      | .ok (_, text) => endsInComment (pos + text.length) (rest.drop (text.length - 1))
termination_by cs.length
decreasing_by all_goals (simp_wf; try omega)

theorem commentLength_append {cs : List Char} (h : '\n' ∈ cs) (more : List Char) :
    commentLength (cs ++ more) = commentLength cs ∧ 1 ≤ commentLength cs ∧
      commentLength cs ≤ cs.length := by
  have htake : ∀ more, ((cs ++ more).takeWhile (· != '\n')) = cs.takeWhile (· != '\n') ∧
      (cs.takeWhile (· != '\n')).length < cs.length := by
    intro more
    induction cs with
    | nil => simp at h
    | cons c cs ih =>
      by_cases hc : c = '\n'
      · rw [List.cons_append, List.takeWhile_cons_of_neg (by simp [hc]),
          List.takeWhile_cons_of_neg (by simp [hc])]
        simp
      · have hmem : '\n' ∈ cs := (List.mem_cons.mp h).resolve_left (Ne.symm hc)
        obtain ⟨heq, hlt⟩ := ih hmem
        rw [List.cons_append, List.takeWhile_cons_of_pos (by simp [hc]),
          List.takeWhile_cons_of_pos (by simp [hc]), heq]
        exact ⟨rfl, Nat.succ_lt_succ hlt⟩
  obtain ⟨heq, hlt⟩ := htake more
  rw [commentLength, commentLength, heq, List.length_append, if_pos hlt, if_pos (by omega)]
  omega

theorem commentLength_open {cs : List Char} (h : '\n' ∉ cs) (more : List Char) :
    commentLength cs = cs.length ∧ commentLength (cs ++ '\n' :: more) = cs.length + 1 := by
  have hall : ∀ c ∈ cs, (c != '\n') = true := by
    intro c hc
    rw [bne_iff_ne]
    rintro rfl
    exact h hc
  have htake : cs.takeWhile (· != '\n') = cs := by
    exact List.takeWhile_eq_self_iff.mpr hall
  have htake' : (cs ++ '\n' :: more).takeWhile (· != '\n') = cs := by
    rw [List.takeWhile_append_of_pos hall, List.takeWhile_cons_of_neg (by simp), List.append_nil]
  rw [commentLength, commentLength, htake, htake', List.length_append, List.length_cons]
  constructor
  · rw [if_neg (Nat.lt_irrefl _)]
  · rw [if_pos (by omega)]

section Steps

variable {pos : Nat} {c : Char} {rest : List Char}

theorem lex_string {text after : List Char} {stop : Nat}
    (hquote : (decide (c = '"') || decide (c = '\'')) = true)
    (hbody : stringBody c pos (pos + 1) rest = .ok (text, stop, after)) :
    lex pos (c :: rest) = (lex stop after).map (⟨.string, String.ofList text, pos⟩ :: ·) ∧
      endsInComment pos (c :: rest) = endsInComment stop after := by
  have hskip : ¬ isSkipped c = true := by
    rcases Bool.or_eq_true_iff.mp hquote with h | h <;> rw [of_decide_eq_true h] <;> decide
  have hcomment : ¬ (decide (c = '/') && decide (rest.head? = some '/')) = true := by
    rcases Bool.or_eq_true_iff.mp hquote with h | h <;> rw [of_decide_eq_true h] <;> simp
  rw [lex, if_neg hskip, if_neg hcomment, if_pos hquote, endsInComment, if_neg hskip,
    if_neg hcomment, if_pos hquote]
  constructor
  · split
    · next h =>
      rw [hbody] at h
      cases h
    · next h =>
      rw [hbody] at h
      cases h
      rfl
  · split
    · next h =>
      rw [hbody] at h
      cases h
    · next h =>
      rw [hbody] at h
      cases h
      rfl

theorem lex_token {text : List Char} {kind : Kind} (hskip : ¬ isSkipped c = true)
    (hcomment : ¬ (decide (c = '/') && decide (rest.head? = some '/')) = true)
    (hquote : ¬ (decide (c = '"') || decide (c = '\'')) = true)
    (htoken : tokenAtFront pos c rest = .ok (kind, text)) :
    lex pos (c :: rest) = (lex (pos + text.length) (rest.drop (text.length - 1))).map
        (⟨kind, String.ofList text, pos⟩ :: ·) ∧
      endsInComment pos (c :: rest) =
        endsInComment (pos + text.length) (rest.drop (text.length - 1)) := by
  rw [lex, if_neg hskip, if_neg hcomment, if_neg hquote, htoken, endsInComment, if_neg hskip,
    if_neg hcomment, if_neg hquote, htoken]
  exact ⟨rfl, rfl⟩

end Steps

theorem map_cons_eq_ok {t : Token} {r : Except LexError (List Token)} {ts : List Token}
    (h : r.map (t :: ·) = .ok ts) : ∃ ts', r = .ok ts' ∧ ts = t :: ts' := by
  cases r with
  | error e => cases h
  | ok ts' => exact ⟨ts', rfl, (Except.ok.inj h).symm⟩

/-- The last token is the end of input. -/
theorem lex_ne_nil {pos : Nat} {cs : List Char} {ts : List Token} (h : lex pos cs = .ok ts) :
    ts ≠ [] := by
  fun_induction lex pos cs generalizing ts with
  | case1 pos =>
    cases h
    exact List.cons_ne_nil _ _
  | case2 pos c rest hskip ih => exact ih h
  | case3 pos c rest hskip hcomment n =>
    rename_i ih
    exact ih h
  | case4 => cases h
  | case5 pos c rest hskip hcomment hquote text stop after hbody hlength ih =>
    obtain ⟨ts', -, rfl⟩ := map_cons_eq_ok h
    exact List.cons_ne_nil _ _
  | case6 => cases h
  | case7 pos c rest hskip hcomment hquote kind text htoken ih =>
    obtain ⟨ts', -, rfl⟩ := map_cons_eq_ok h
    exact List.cons_ne_nil _ _

/-- A text with a break behind it has the tokens that it has alone, up to the end of input, and those
of what follows. -/
theorem lex_append {s : Char} (hs : IsBreak s) {pos : Nat} {cs : List Char} {ts : List Token}
    (h : lex pos cs = .ok ts) (hopen : s = '\n' ∨ endsInComment pos cs = false)
    (more : List Char) :
    lex pos (cs ++ s :: more) =
      (lex (pos + cs.length) (s :: more)).map (ts.dropLast ++ ·) := by
  fun_induction lex pos cs generalizing ts with
  | case1 pos =>
    cases h
    show lex pos (s :: more) = (lex pos (s :: more)).map id
    cases lex pos (s :: more) <;> rfl
  | case2 pos c rest hskip ih =>
    rw [endsInComment, if_pos hskip] at hopen
    rw [List.cons_append, lex, if_pos hskip, ih h hopen, List.length_cons, Nat.add_assoc,
      Nat.add_comm 1]
  | case3 pos c rest hskip hcomment n =>
    rename_i ih
    have hslash : c = '/' ∧ rest.head? = some '/' := by simpa using hcomment
    have hne : rest ≠ [] := by
      rintro rfl
      cases hslash.2
    have hcomment' : (decide (c = '/') && decide ((rest ++ s :: more).head? = some '/')) = true := by
      rw [List.head?_append, Option.or_of_isSome (by simpa using hne)]
      exact hcomment
    have hunfold : lex pos (c :: rest ++ s :: more) =
        lex (pos + commentLength (c :: rest ++ s :: more))
          ((rest ++ s :: more).drop (commentLength (c :: rest ++ s :: more) - 1)) := by
      rw [List.cons_append, lex, if_neg hskip, if_pos hcomment']
    rw [endsInComment, if_neg hskip, if_pos hcomment] at hopen
    by_cases hnewline : '\n' ∈ rest
    · obtain ⟨hn, hpos, hle⟩ := commentLength_append (List.mem_cons_of_mem c hnewline) (s :: more)
      rw [List.length_cons] at hle
      have hcontains : rest.contains '\n' = true := List.contains_iff_mem.mpr hnewline
      rw [hcontains] at hopen
      rw [hunfold, hn, drop_append_of_le more (by omega), ih h hopen, List.length_drop,
        List.length_cons]
      congr 2
      omega
    · have hcontains : rest.contains '\n' = false := by
        rw [← Bool.not_eq_true, List.contains_iff_mem]
        exact hnewline
      rw [hcontains] at hopen
      have hs' : s = '\n' := hopen.resolve_right (by simp)
      have hall : '\n' ∉ c :: rest := by
        rw [List.mem_cons, not_or]
        exact ⟨by rw [hslash.1]; decide, hnewline⟩
      obtain ⟨hn, hn'⟩ := commentLength_open hall more
      rw [show n = rest.length + 1 from hn, Nat.add_sub_cancel, List.drop_length, lex] at h
      cases h
      rw [hunfold, hs', hn', List.length_cons, Nat.add_sub_cancel]
      rw [show (rest ++ '\n' :: more).drop (rest.length + 1) = more by simp]
      rw [lex.eq_def (pos + (rest.length + 1)) ('\n' :: more)]
      dsimp only
      rw [if_pos (by decide), ← Nat.add_assoc]
      cases lex (pos + (rest.length + 1) + 1) more <;> rfl
  | case4 => cases h
  | case5 pos c rest hskip hcomment hquote text stop after hbody hlength ih =>
    obtain ⟨ts', hts', rfl⟩ := map_cons_eq_ok h
    obtain ⟨happend, hstop⟩ := stringBody_append hbody (s :: more)
    rw [(lex_string hquote hbody).2] at hopen
    rw [List.cons_append, (lex_string hquote happend).1, ih hts' hopen,
      List.dropLast_cons_of_ne_nil (lex_ne_nil hts'), hstop, List.length_cons, Nat.add_assoc,
      Nat.add_comm 1]
    cases lex (pos + (rest.length + 1)) (s :: more) <;> rfl
  | case6 => cases h
  | case7 pos c rest hskip hcomment hquote kind text htoken ih =>
    obtain ⟨ts', hts', rfl⟩ := map_cons_eq_ok h
    obtain ⟨hpos, hle⟩ := length_tokenAtFront htoken
    have htoken' := (tokenAtFront_append hs more pos c rest).trans htoken
    have hcomment' : ¬ (decide (c = '/') &&
        decide ((rest ++ s :: more).head? = some '/')) = true := by
      cases rest with
      | nil => simp [hs.slash]
      | cons d rest => exact hcomment
    rw [(lex_token hskip hcomment hquote htoken).2] at hopen
    rw [List.cons_append, (lex_token hskip hcomment' hquote htoken').1,
      drop_append_of_le more (by omega), ih hts' hopen,
      List.dropLast_cons_of_ne_nil (lex_ne_nil hts'), List.length_drop, List.length_cons,
      show pos + text.length + (rest.length - (text.length - 1)) = pos + (rest.length + 1) by omega]
    cases lex (pos + (rest.length + 1)) (s :: more) <;> rfl

end Script
end Vitrine
