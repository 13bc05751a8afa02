import Vitrine.Proofs.Script.Printing

/-!
# The tokens of composed texts

Which tokens a text has, at whatever position it stands (`Lexes`), and the tokens of texts that are
put together from others.
-/
namespace Vitrine
namespace Script

/-! ## Positions -/

theorem stringBody_pos {quote : Char} {start pos stop : Nat} {cs text rest : List Char}
    (h : stringBody quote start pos cs = .ok (text, stop, rest)) (start' pos' : Nat) :
    ∃ stop', stringBody quote start' pos' cs = .ok (text, stop', rest) := by
  fun_induction stringBody quote start pos cs generalizing text stop rest pos' with
  | case1 => cases h
  | case2 => cases h
  | case3 pos c cs ih =>
    rcases hb : stringBody quote start (pos + 2) cs with e | ⟨t, p, r⟩
    · rw [hb] at h
      cases h
    · rw [hb] at h
      cases h
      obtain ⟨stop', hstop⟩ := ih hb (pos' + 2)
      exact ⟨stop', by rw [stringBody, hstop]; rfl⟩
  | case4 => cases h
  | case5 pos cs hend hmore hnewline =>
    cases h
    have hback : quote ≠ '\\' := by
      intro hq
      cases cs with
      | nil => exact hend hq rfl
      | cons c cs => exact hmore c cs hq rfl
    exact ⟨pos' + 1, by rw [stringBody_cons hback hnewline, if_pos rfl]⟩
  | case6 pos c cs hend hmore hnewline hquote ih =>
    rcases hb : stringBody quote start (pos + 1) cs with e | ⟨t, p, r⟩
    · rw [hb] at h
      cases h
    · rw [hb] at h
      cases h
      have hback : c ≠ '\\' := by
        intro hq
        cases cs with
        | nil => exact hend hq rfl
        | cons d ds => exact hmore d ds hq rfl
      obtain ⟨stop', hstop⟩ := ih hb (pos' + 1)
      exact ⟨stop', by rw [stringBody_cons hback hnewline, if_neg hquote, hstop]; rfl⟩

theorem tokenAtFront_pos {pos : Nat} {c : Char} {cs : List Char} {r : Kind × List Char}
    (h : tokenAtFront pos c cs = .ok r) (pos' : Nat) : tokenAtFront pos' c cs = .ok r := by
  rw [tokenAtFront] at h ⊢
  split at h
  · next hdigit =>
    rw [if_pos hdigit]
    exact h
  · next hdigit =>
    rw [if_neg hdigit]
    split at h
    · next hletter =>
      rw [if_pos hletter]
      exact h
    · next hletter =>
      rw [if_neg hletter]
      split at h
      · exact h
      · cases h

/-- The tokens of a text are the same at every position. -/
theorem lex_pos {pos : Nat} {cs : List Char} {ts : List Token} (h : lex pos cs = .ok ts)
    (pos' : Nat) : ∃ ts', lex pos' cs = .ok ts' ∧
      ts'.map Token.lexeme = ts.map Token.lexeme ∧
        endsInComment pos' cs = endsInComment pos cs := by
  fun_induction lex pos cs generalizing ts pos' with
  | case1 pos =>
    cases h
    rw [lex, endsInComment, endsInComment]
    exact ⟨_, rfl, rfl, rfl⟩
  | case2 pos c rest hskip ih =>
    rw [lex, if_pos hskip, endsInComment, endsInComment, if_pos hskip, if_pos hskip]
    exact ih h _
  | case3 pos c rest hskip hcomment n =>
    rename_i ih
    obtain ⟨ts', hlex, hmap, hends⟩ := ih h (pos' + n)
    rw [lex, if_neg hskip, if_pos hcomment, endsInComment, endsInComment, if_neg hskip,
      if_neg hskip, if_pos hcomment, if_pos hcomment]
    exact ⟨ts', hlex, hmap, congrArg (!rest.contains '\n' || ·) hends⟩
  | case4 => cases h
  | case5 pos c rest hskip hcomment hquote text stop after hbody hlength ih =>
    obtain ⟨ts', hts', rfl⟩ := map_cons_eq_ok h
    obtain ⟨stop', hbody'⟩ := stringBody_pos hbody pos' (pos' + 1)
    obtain ⟨us, hlex, hmap, hends⟩ := ih hts' stop'
    rw [(lex_string hquote hbody').1, (lex_string hquote hbody').2, (lex_string hquote hbody).2, hlex]
    exact ⟨_, rfl, by rw [List.map_cons, List.map_cons, hmap]; rfl, hends⟩
  | case6 => cases h
  | case7 pos c rest hskip hcomment hquote kind text htoken ih =>
    obtain ⟨ts', hts', rfl⟩ := map_cons_eq_ok h
    have htoken' := tokenAtFront_pos htoken pos'
    obtain ⟨us, hlex, hmap, hends⟩ := ih hts' (pos' + text.length)
    rw [(lex_token hskip hcomment hquote htoken').1, (lex_token hskip hcomment hquote htoken').2,
      (lex_token hskip hcomment hquote htoken).2, hlex]
    exact ⟨_, rfl, by rw [List.map_cons, List.map_cons, hmap]; rfl, hends⟩

theorem kind_ne_eof {pos : Nat} {c : Char} {cs text : List Char} {kind : Kind}
    (h : tokenAtFront pos c cs = .ok (kind, text)) : kind ≠ .eof := by
  rw [tokenAtFront] at h
  split at h
  · split at h
    · rw [numberAtFront] at h
      split at h <;> (cases h; simp)
    · cases h
  · split at h
    · split at h
      · cases h
        rw [kindOfWord]
        split <;> simp
      · cases h
    · split at h
      · cases h
        simp
      · cases h

/-- The last token, and no other one, is the end of input. -/
theorem lex_eof {pos : Nat} {cs : List Char} {ts : List Token} (h : lex pos cs = .ok ts) :
    ∃ xs, ts.map Token.lexeme = xs ++ [.eof] ∧ ∀ x ∈ xs, x.kind ≠ .eof := by
  fun_induction lex pos cs generalizing ts with
  | case1 pos =>
    cases h
    exact ⟨[], rfl, by simp⟩
  | case2 pos c rest hskip ih => exact ih h
  | case3 pos c rest hskip hcomment n =>
    rename_i ih
    exact ih h
  | case4 => cases h
  | case5 pos c rest hskip hcomment hquote text stop after hbody hlength ih =>
    obtain ⟨ts', hts', rfl⟩ := map_cons_eq_ok h
    obtain ⟨xs, hxs, hall⟩ := ih hts'
    refine ⟨_ :: xs, by rw [List.map_cons, hxs, List.cons_append], ?_⟩
    exact List.forall_mem_cons.mpr ⟨by simp [Token.lexeme], hall⟩
  | case6 => cases h
  | case7 pos c rest hskip hcomment hquote kind text htoken ih =>
    obtain ⟨ts', hts', rfl⟩ := map_cons_eq_ok h
    obtain ⟨xs, hxs, hall⟩ := ih hts'
    refine ⟨_ :: xs, by rw [List.map_cons, hxs, List.cons_append], ?_⟩
    exact List.forall_mem_cons.mpr ⟨kind_ne_eof htoken, hall⟩

/-! ## Texts and their tokens -/

/-- The tokens of a text, wherever it stands. -/
def Lexes (cs : List Char) (xs : List Lexeme) : Prop :=
  ∀ pos, ∃ ts, lex pos cs = .ok ts ∧ ts.map Token.lexeme = xs ++ [.eof]

/-- Texts that do not end in a comment. -/
def IsClosed (cs : List Char) : Prop := ∀ pos, endsInComment pos cs = false

variable {cs more : List Char} {xs ys : List Lexeme} {c s : Char}

theorem lexes_of_lex {ts : List Token} (h : lex 0 cs = .ok ts) (hts : ts.map Token.lexeme = xs ++ [.eof]) :
    Lexes cs xs := by
  intro pos
  obtain ⟨ts', hlex, hmap, -⟩ := lex_pos h pos
  exact ⟨ts', hlex, hmap.trans hts⟩

theorem Lexes.unique (h : Lexes cs xs) (h' : Lexes cs ys) : xs = ys := by
  obtain ⟨ts, hlex, hmap⟩ := h 0
  obtain ⟨ts', hlex', hmap'⟩ := h' 0
  obtain rfl := Except.ok.inj (hlex.symm.trans hlex')
  exact List.append_cancel_right (hmap.symm.trans hmap')

theorem Lexes.isClosed (h : Lexes cs xs) (hends : endsInComment 0 cs = false) : IsClosed cs := by
  intro pos
  obtain ⟨ts, hlex, -⟩ := h 0
  obtain ⟨ts', -, -, hclosed⟩ := lex_pos hlex pos
  exact hclosed.trans hends

theorem IsToken.lexes {x : Lexeme} (h : IsToken x) : Lexes x.spelling [x] :=
  fun pos => ⟨_, (h pos).1, rfl⟩

theorem IsToken.isClosed {x : Lexeme} (h : IsToken x) : IsClosed x.spelling := fun pos => (h pos).2

theorem lexes_spelled (h : ∀ x ∈ xs, IsSpelled x) : Lexes (spelled xs) xs := fun pos => lex_spelled h pos

theorem lexes_nil : Lexes [] [] := fun pos => ⟨_, by rw [lex], rfl⟩

/-- A text, a break and what follows it. -/
theorem Lexes.append_break (h : Lexes cs xs) (hs : s ∈ breaks) (hclosed : s = '\n' ∨ IsClosed cs)
    (hmore : Lexes (s :: more) ys) : Lexes (cs ++ s :: more) (xs ++ ys) := by
  intro pos
  obtain ⟨ts, hlex, hmap⟩ := h pos
  obtain ⟨us, hlex', hmap'⟩ := hmore (pos + cs.length)
  refine ⟨ts.dropLast ++ us, ?_, ?_⟩
  · rw [lex_append (isBreak_of_mem hs) hlex (hclosed.imp_right fun h => h pos), hlex']
    rfl
  · have hinit : ts.dropLast.map Token.lexeme = xs := by
      rw [List.map_dropLast, hmap, List.dropLast_concat]
    rw [List.map_append, hinit, hmap', List.append_assoc]

theorem Lexes.skip (h : Lexes cs xs) (hc : isSkipped c = true) : Lexes (c :: cs) xs := by
  intro pos
  obtain ⟨ts, hlex, hmap⟩ := h (pos + 1)
  exact ⟨ts, by rw [lex, if_pos hc, hlex], hmap⟩

/-- A symbol of one character that no longer symbol begins with. -/
theorem Lexes.symbol {s : Symbol} (h : Lexes cs xs)
    (hc : (c, s) ∈ [('(', Symbol.lparen), (')', .rparen), (',', .comma), (';', .semicolon),
      ('\x7d', .rbrace)]) : Lexes (c :: cs) (⟨.symbol s, String.ofList [c]⟩ :: xs) := by
  intro pos
  obtain ⟨ts, hlex, hmap⟩ := h (pos + 1)
  have htoken : tokenAtFront pos c cs = .ok (.symbol s, [c]) := by
    simp only [List.mem_cons, Prod.mk.injEq, List.not_mem_nil, or_false] at hc
    rcases hc with ⟨rfl, rfl⟩ | ⟨rfl, rfl⟩ | ⟨rfl, rfl⟩ | ⟨rfl, rfl⟩ | ⟨rfl, rfl⟩ <;> rfl
  have hall : ∀ p ∈ [('(', Symbol.lparen), (')', .rparen), (',', .comma), (';', .semicolon),
      ('\x7d', .rbrace)], ¬ isSkipped p.1 = true ∧ p.1 ≠ '/' ∧
        ¬ (decide (p.1 = '"') || decide (p.1 = '\'')) = true := by decide
  obtain ⟨hskip, hslash, hquote⟩ := hall _ hc
  have hcomment : ¬ (decide (c = '/') && decide (cs.head? = some '/')) = true := by simp [hslash]
  refine ⟨_, by rw [(lex_token hskip hcomment hquote htoken).1]; exact congrArg _ hlex, ?_⟩
  rw [List.map_cons, hmap]
  rfl

theorem commentLength_whole (h : '\n' ∉ cs) : commentLength cs = cs.length := by
  rw [commentLength]
  have htake : cs.takeWhile (· != '\n') = cs := by
    refine List.takeWhile_eq_self_iff.mpr fun d hd => ?_
    rw [bne_iff_ne]
    rintro rfl
    exact h hd
  rw [htake, if_neg (Nat.lt_irrefl _)]

/-- What stands behind an open comment, up to the end of the line, is part of it. -/
theorem lex_hidden {pos : Nat} {ts : List Token} (hs : IsBreak s) (hs' : s ≠ '\n')
    (h : lex pos cs = .ok ts) (hopen : endsInComment pos cs = true) :
    ∃ ts', lex pos (cs ++ [s]) = .ok ts' ∧ ts'.map Token.lexeme = ts.map Token.lexeme := by
  fun_induction lex pos cs generalizing ts with
  | case1 pos =>
    rw [endsInComment] at hopen
    cases hopen
  | case2 pos c rest hskip ih =>
    rw [endsInComment, if_pos hskip] at hopen
    rw [List.cons_append, lex, if_pos hskip]
    exact ih h hopen
  | case3 pos c rest hskip hcomment n =>
    rename_i ih
    have hslash : c = '/' ∧ rest.head? = some '/' := by simpa using hcomment
    have hcomment' : (decide (c = '/') && decide ((rest ++ [s]).head? = some '/')) = true := by
      rw [List.head?_append, hslash.2]
      simp [hslash.1]
    rw [List.cons_append, lex, if_neg hskip, if_pos hcomment']
    rw [endsInComment, if_neg hskip, if_pos hcomment] at hopen
    have hc : c ≠ '\n' := by
      rw [hslash.1]
      decide
    by_cases hnewline : '\n' ∈ rest
    · obtain ⟨hn, hpos, hle⟩ := commentLength_append (List.mem_cons_of_mem c hnewline) [s]
      rw [List.length_cons] at hle
      rw [List.contains_iff_mem.mpr hnewline] at hopen
      obtain ⟨ts', hlex, hmap⟩ := ih h hopen
      refine ⟨ts', ?_, hmap⟩
      show lex (pos + commentLength (c :: rest ++ [s])) _ = _
      rw [← List.cons_append, hn, drop_append_of_le [] (by omega)]
      exact hlex
    · have hwhole : '\n' ∉ c :: (rest ++ [s]) := by
        simp [hc.symm, hnewline, hs'.symm]
      have hn : n = rest.length + 1 := by
        refine commentLength_whole fun hmem => ?_
        exact (List.mem_cons.mp hmem).elim (fun h => hc h.symm) hnewline
      rw [hn, Nat.add_sub_cancel, List.drop_length, lex] at h
      cases h
      have hn' : commentLength (c :: (rest ++ [s])) = rest.length + 2 := by
        rw [commentLength_whole hwhole]
        simp
      dsimp only
      rw [hn', show (rest ++ [s]).drop (rest.length + 2 - 1) = [] by simp, lex]
      exact ⟨_, rfl, rfl⟩
  | case4 => cases h
  | case5 pos c rest hskip hcomment hquote text stop after hbody hlength ih =>
    obtain ⟨ts', hts', rfl⟩ := map_cons_eq_ok h
    obtain ⟨happend, -⟩ := stringBody_append hbody [s]
    rw [(lex_string hquote hbody).2] at hopen
    obtain ⟨us, hlex, hmap⟩ := ih hts' hopen
    rw [List.cons_append, (lex_string hquote happend).1, hlex]
    exact ⟨_, rfl, by rw [List.map_cons, List.map_cons, hmap]⟩
  | case6 => cases h
  | case7 pos c rest hskip hcomment hquote kind text htoken ih =>
    obtain ⟨ts', hts', rfl⟩ := map_cons_eq_ok h
    obtain ⟨hpos, hle⟩ := length_tokenAtFront htoken
    have htoken' := (tokenAtFront_append hs [] pos c rest).trans htoken
    have hcomment' : ¬ (decide (c = '/') && decide ((rest ++ [s]).head? = some '/')) = true := by
      cases rest with
      | nil => simp [hs.slash]
      | cons d rest => exact hcomment
    rw [(lex_token hskip hcomment hquote htoken).2] at hopen
    obtain ⟨us, hlex, hmap⟩ := ih hts' hopen
    rw [List.cons_append, (lex_token hskip hcomment' hquote htoken').1,
      drop_append_of_le [] (by omega), hlex]
    exact ⟨_, rfl, by rw [List.map_cons, List.map_cons, hmap]⟩

/-- An expression with a semicolon behind it has its own tokens, and the semicolon unless a comment
hides it. -/
theorem Lexes.semicolon (h : Lexes cs xs) :
    ∃ tail, (tail = [symbolLexeme .semicolon] ∨ tail = []) ∧ Lexes (cs ++ [';']) (xs ++ tail) := by
  obtain ⟨ts, hlex, hmap⟩ := h 0
  cases hends : endsInComment 0 cs with
  | false =>
    have hlast : Lexes [';'] [symbolLexeme .semicolon] := lexes_nil.symbol (by decide)
    exact ⟨_, Or.inl rfl, h.append_break (by decide) (Or.inr (h.isClosed hends)) hlast⟩
  | true =>
    obtain ⟨us, hlex', hmap'⟩ := lex_hidden (isBreak_of_mem (s := ';') (by decide)) (by decide) hlex hends
    exact ⟨[], Or.inr rfl, lexes_of_lex hlex' (by rw [hmap', hmap, List.append_nil])⟩

end Script
end Vitrine
