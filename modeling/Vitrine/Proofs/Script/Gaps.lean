import Vitrine.Proofs.Script.Containment
import Vitrine.Proofs.Script.Lexemes

/-!
# Between tokens

What may stand in front of a token: blanks and comments, mixed as they please (`IsGap`). A text whose
tokens are known begins with a gap, then with the text of its first token, and the other tokens are
those of what follows (`lex_cons`).
-/
namespace Vitrine
namespace Script

variable {pos : Nat} {cs gap rest : List Char} {t : Token} {ts : List Token}

/-! ## Gaps -/

/-- Blanks and comments, each comment with the line feed that ends it. -/
inductive IsGap : List Char → Prop
  | nil : IsGap []
  | skip {c : Char} {gap : List Char} (hc : isSkipped c = true) (h : IsGap gap) : IsGap (c :: gap)
  | comment {line gap : List Char} (hline : '\n' ∉ line) (h : IsGap gap) :
      IsGap ('/' :: '/' :: (line ++ '\n' :: gap))

theorem IsGap.append {gap' : List Char} (h : IsGap gap) (h' : IsGap gap') : IsGap (gap ++ gap') := by
  induction h with
  | nil => exact h'
  | skip hc _ ih => exact .skip hc ih
  | comment hline _ ih =>
    rw [List.cons_append, List.cons_append, List.append_assoc, List.cons_append]
    exact .comment hline ih

/-- Characters that the lexer skips one by one. -/
def AreSkipped (cs : List Char) : Prop := ∀ c ∈ cs, isSkipped c = true

theorem isSkipped_iff {c : Char} : isSkipped c = true ↔ c ∈ [' ', '\t', '\n', '\r'] := by
  simp [isSkipped, or_assoc]

/-- No comment is between two tokens, or one is behind blanks. -/
theorem IsGap.skipped_or_comment (h : IsGap gap) : AreSkipped gap ∨
    ∃ blanks rest, AreSkipped blanks ∧ gap = blanks ++ '/' :: '/' :: rest := by
  induction h with
  | nil => exact Or.inl (List.forall_mem_nil _)
  | @skip c gap hc _ ih =>
    rcases ih with hgap | ⟨blanks, rest, hblanks, rfl⟩
    · exact Or.inl (List.forall_mem_cons.mpr ⟨hc, hgap⟩)
    · exact Or.inr ⟨c :: blanks, rest, List.forall_mem_cons.mpr ⟨hc, hblanks⟩, rfl⟩
  | comment => exact Or.inr ⟨[], _, List.forall_mem_nil _, rfl⟩

theorem IsGap.head {c : Char} (h : IsGap (c :: rest)) : isSkipped c = true ∨ c = '/' := by
  cases h with
  | skip hc => exact Or.inl hc
  | comment => exact Or.inr rfl

/-- A comment is as long as its line, or takes all that is left if no line feed follows. -/
theorem commentLength_cases (cs : List Char) :
    ('\n' ∉ cs ∧ commentLength ('/' :: '/' :: cs) = cs.length + 2) ∨
      ∃ line after, '\n' ∉ line ∧ cs = line ++ '\n' :: after ∧
        commentLength ('/' :: '/' :: cs) = line.length + 3 := by
  by_cases hnewline : '\n' ∈ cs
  · obtain ⟨line, after, rfl, hline⟩ := List.eq_append_cons_of_mem hnewline
    have hopen : '\n' ∉ '/' :: '/' :: line := by simpa using hline
    exact Or.inr ⟨line, after, hline, rfl, (commentLength_open hopen after).2⟩
  · have hopen : '\n' ∉ '/' :: '/' :: cs := by simpa using hnewline
    exact Or.inl ⟨hnewline, (commentLength_open hopen []).1⟩

/-- A comment takes the rest of its line away, or all that follows if no line feed does. -/
theorem drop_comment (cs : List Char) :
    ('/' :: cs).drop (commentLength ('/' :: '/' :: cs) - 1) = [] ∨
      ∃ line after, '\n' ∉ line ∧ cs = line ++ '\n' :: after ∧
        ('/' :: cs).drop (commentLength ('/' :: '/' :: cs) - 1) = after := by
  rcases commentLength_cases cs with ⟨-, hlength⟩ | ⟨line, after, hline, rfl, hlength⟩
  · rw [hlength]
    simp
  · refine Or.inr ⟨line, after, hline, rfl, ?_⟩
    rw [hlength]
    simp

/-- The first token of a text, what stands in front of it and what has the other tokens. -/
theorem lex_cons (h : lex pos cs = .ok (t :: ts)) (hend : t.kind ≠ .eof) (hstring : t.kind ≠ .string) :
    ∃ gap c tail after, IsGap gap ∧ cs = gap ++ c :: (tail ++ after) ∧ t.text.toList = c :: tail ∧
      (∃ pos', tokenAtFront pos' c (tail ++ after) = .ok (t.kind, c :: tail)) ∧
        ∃ pos', lex pos' after = .ok ts := by
  fun_induction lex pos cs with
  | case1 pos =>
    cases h
    exact absurd rfl hend
  | case2 pos c rest hskip ih =>
    obtain ⟨gap, d, tail, after, hgap, rfl, hrest⟩ := ih h
    exact ⟨c :: gap, d, tail, after, .skip hskip hgap, rfl, hrest⟩
  | case3 pos c rest hskip hcomment n =>
    rename_i ih
    have hslash : c = '/' ∧ rest.head? = some '/' := by simpa using hcomment
    obtain ⟨rfl, hhead⟩ := hslash
    obtain ⟨rest, rfl⟩ := List.head?_eq_some_iff.mp hhead
    rcases drop_comment rest with hnil | ⟨line, behind, hline, rfl, hdrop⟩
    · rw [show n = commentLength ('/' :: '/' :: rest) from rfl, hnil, lex] at h
      cases h
      exact absurd rfl hend
    · obtain ⟨gap, d, tail, after, hgap, heq, hrest⟩ := ih h
      rw [show n = commentLength ('/' :: '/' :: (line ++ '\n' :: behind)) from rfl, hdrop] at heq
      refine ⟨_, d, tail, after, .comment hline hgap, ?_, hrest⟩
      rw [heq]
      simp
  | case4 => cases h
  | case5 pos c rest hskip hcomment hquote text stop after hbody hlength ih =>
    obtain ⟨ts', -, heq⟩ := map_cons_eq_ok h
    rw [(List.cons.inj heq).1] at hstring
    exact absurd rfl hstring
  | case6 => cases h
  | case7 pos c rest hskip hcomment hquote kind text htoken ih =>
    obtain ⟨ts', hts', heq⟩ := map_cons_eq_ok h
    obtain ⟨rfl, rfl⟩ := List.cons.inj heq
    obtain ⟨tail, rfl, ⟨after, rfl⟩, -⟩ := tokenAtFront_eq_ok htoken
    rw [List.length_cons, Nat.add_sub_cancel, List.drop_left] at hts'
    exact ⟨[], c, tail, after, .nil, rfl, String.toList_ofList, ⟨_, htoken⟩, _, hts'⟩

/-! ## Words and symbols -/

theorem kind_numberAtFront (cs : List Char) :
    (numberAtFront cs).1 = .int ∨ (numberAtFront cs).1 = .float := by
  rw [numberAtFront]
  dsimp only
  split
  · exact Or.inl rfl
  · exact Or.inr rfl

section Front

variable {c : Char} {rest text : List Char} {kind : Kind}

/-- What a token of one character and more is: a number, a word that is as long as can be, or a
symbol. -/
theorem tokenAtFront_cases (h : tokenAtFront pos c rest = .ok (kind, text)) :
    (kind = .int ∨ kind = .float) ∨
      (isNameStart c = true ∧ text = c :: rest.takeWhile isNameChar ∧
        kind = kindOfWord (String.ofList text)) ∨
      ∃ s, kind = .symbol s ∧ (String.ofList text, s) ∈ symbolTable := by
  rw [tokenAtFront] at h
  split at h
  · split at h
    · have hkind := kind_numberAtFront (c :: rest)
      rw [Except.ok.inj h] at hkind
      exact Or.inl hkind
    · cases h
  · split at h
    · split at h
      · next hstart =>
        cases h
        exact Or.inr (Or.inl ⟨hstart, rfl, rfl⟩)
      · cases h
    · split at h
      · next word s hsymbol =>
        cases h
        rw [String.ofList_toList]
        exact Or.inr (Or.inr ⟨s, rfl, List.mem_of_find?_eq_some hsymbol⟩)
      · cases h

/-- Kinds of words. -/
def Kind.IsWord (kind : Kind) : Prop := kind = .ident ∨ ∃ k, kind = .keyword k

theorem tokenAtFront_word (h : tokenAtFront pos c rest = .ok (kind, text)) (hkind : kind.IsWord) :
    isNameStart c = true ∧ text = c :: rest.takeWhile isNameChar ∧
      kind = kindOfWord (String.ofList text) := by
  rcases tokenAtFront_cases h with (rfl | rfl) | hword | ⟨s, rfl, -⟩
  · rcases hkind with hkind | ⟨k, hkind⟩ <;> cases hkind
  · rcases hkind with hkind | ⟨k, hkind⟩ <;> cases hkind
  · exact hword
  · rcases hkind with hkind | ⟨k, hkind⟩ <;> cases hkind

theorem tokenAtFront_symbol {s : Symbol} (h : tokenAtFront pos c rest = .ok (.symbol s, text)) :
    (String.ofList text, s) ∈ symbolTable := by
  rcases tokenAtFront_cases h with (hkind | hkind) | ⟨-, -, hkind⟩ | ⟨s', hkind, hmem⟩
  · cases hkind
  · cases hkind
  · rw [kindOfWord] at hkind
    split at hkind <;> cases hkind
  · cases hkind
    exact hmem

end Front

/-- No character of a name stands at the front. -/
def Breaks (cs : List Char) : Prop := ∀ d, cs.head? = some d → isNameChar d = false

theorem breaks_dropWhile (cs : List Char) : Breaks (cs.dropWhile isNameChar) := by
  intro d hd
  have hnot := List.head?_dropWhile_not isNameChar cs
  rw [hd] at hnot
  exact hnot

/-- A text whose first token is a word. -/
theorem lex_cons_word (h : lex pos cs = .ok (t :: ts)) (ht : t.kind.IsWord) :
    ∃ gap after, IsGap gap ∧ cs = gap ++ (t.text.toList ++ after) ∧ IsName t.text ∧
      kindOfWord t.text = t.kind ∧ Breaks after ∧ ∃ pos', lex pos' after = .ok ts := by
  have hne : t.kind ≠ .eof ∧ t.kind ≠ .string := by
    rcases ht with ht | ⟨k, ht⟩ <;> rw [ht] <;> exact ⟨nofun, nofun⟩
  obtain ⟨gap, c, tail, after, hgap, rfl, htext, ⟨pos', htoken⟩, hafter⟩ := lex_cons h hne.1 hne.2
  obtain ⟨hstart, htail, hkind⟩ := tokenAtFront_word htoken ht
  have htail := (List.cons.inj htail).2
  have hchars : ∀ d ∈ tail, isNameChar d = true := by
    intro d hd
    rw [htail] at hd
    exact List.all_eq_true.mp List.all_takeWhile d hd
  have hbreaks : Breaks after := by
    have hsplit : (tail ++ after).takeWhile isNameChar ++ (tail ++ after).dropWhile isNameChar =
        tail ++ after := List.takeWhile_append_dropWhile
    rw [← htail] at hsplit
    rw [← List.append_cancel_left hsplit]
    exact breaks_dropWhile _
  rw [← htext, String.ofList_toList] at hkind
  exact ⟨gap, after, hgap, by rw [htext]; rfl, ⟨c, tail, htext, hstart, hchars⟩, hkind.symm, hbreaks,
    hafter⟩

/-- A text whose first token is a symbol, which is written in one way. -/
theorem lex_cons_symbol {s : Symbol} (text : String) (h : lex pos cs = .ok (t :: ts))
    (ht : t.kind = .symbol s) (hs : ∀ e ∈ symbolTable, e.2 = s → e.1 = text) :
    ∃ gap after, IsGap gap ∧ cs = gap ++ (text.toList ++ after) ∧ ∃ pos', lex pos' after = .ok ts := by
  obtain ⟨gap, c, tail, after, hgap, rfl, htext, ⟨pos', htoken⟩, hafter⟩ :=
    lex_cons h (by rw [ht]; exact nofun) (by rw [ht]; exact nofun)
  rw [ht] at htoken
  have hword : String.ofList (c :: tail) = text := hs _ (tokenAtFront_symbol htoken) rfl
  rw [← hword, String.toList_ofList]
  exact ⟨gap, after, hgap, rfl, hafter⟩

end Script
end Vitrine
