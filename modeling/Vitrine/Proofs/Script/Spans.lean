import Vitrine.Proofs.Script.Gaps
import Vitrine.Proofs.Script.Joining

/-!
# Where tokens lie

How the tokens of a text lie in it, one behind the other with blanks and comments between them
(`Covers`), so that every character belongs to one token or to one gap (`tokenize_exact`).
-/
namespace Vitrine
namespace Script

variable {pos stop : Nat} {cs gap rest : List Char} {ts : List Token}

/-! ## The end of a text -/

/-- What may stand behind the last token: a gap, or a gap and a comment that nothing ends. -/
inductive IsTail : List Char → Prop
  | gap {gap : List Char} (h : IsGap gap) : IsTail gap
  | comment {gap line : List Char} (h : IsGap gap) (hline : '\n' ∉ line) :
      IsTail (gap ++ '/' :: '/' :: line)

theorem IsGap.append_tail (h : IsGap gap) (h' : IsTail rest) : IsTail (gap ++ rest) := by
  cases h' with
  | gap h' => exact .gap (h.append h')
  | comment h' hline =>
    rw [← List.append_assoc]
    exact .comment (h.append h') hline

/-! ## Strings -/

/-- A text as it is written between quotes. -/
inductive Quoting (quote : Char) : List Char → List Char → Prop
  | nil : Quoting quote [] []
  | escape {c : Char} {body text : List Char} (h : Quoting quote body text) :
      Quoting quote ('\\' :: c :: body) (unescape c :: text)
  | plain {c : Char} {body text : List Char} (hback : c ≠ '\\') (hquote : c ≠ quote)
      (hline : c ≠ '\n') (h : Quoting quote body text) : Quoting quote (c :: body) (c :: text)

theorem stringBody_quoting {quote : Char} {start : Nat} {text : List Char}
    (h : stringBody quote start pos cs = .ok (text, stop, rest)) :
    ∃ body, cs = body ++ quote :: rest ∧ Quoting quote body text ∧
      stop = pos + body.length + 1 := by
  fun_induction stringBody quote start pos cs generalizing text stop rest with
  | case1 => cases h
  | case2 => cases h
  | case3 pos c cs ih =>
    rcases hb : stringBody quote start (pos + 2) cs with e | ⟨t, p, r⟩
    · rw [hb] at h
      cases h
    · rw [hb] at h
      cases h
      obtain ⟨body, rfl, hbody, rfl⟩ := ih hb
      refine ⟨'\\' :: c :: body, rfl, .escape hbody, ?_⟩
      rw [List.length_cons, List.length_cons]
      omega
  | case4 => cases h
  | case5 pos cs hend hmore hnewline =>
    cases h
    exact ⟨[], rfl, .nil, rfl⟩
  | case6 pos c cs hend hmore hnewline hquote ih =>
    rcases hb : stringBody quote start (pos + 1) cs with e | ⟨t, p, r⟩
    · rw [hb] at h
      cases h
    · rw [hb] at h
      cases h
      have hback : c ≠ '\\' := by
        intro hq
        cases cs with
        | nil => exact hend hq rfl
        | cons d ds => exact hmore d ds hq rfl
      obtain ⟨body, rfl, hbody, rfl⟩ := ih hb
      refine ⟨c :: body, rfl, .plain hback hquote hnewline hbody, ?_⟩
      rw [List.length_cons]
      omega

/-! ## Symbols -/

theorem symbolAtFront_of_tokenAtFront {c : Char} {text : List Char} {s : Symbol}
    (h : tokenAtFront pos c cs = .ok (.symbol s, text)) :
    symbolAtFront (c :: cs) = some (String.ofList text, s) := by
  rw [tokenAtFront] at h
  split at h
  · split at h
    · have hkind := kind_numberAtFront (c :: cs)
      rw [Except.ok.inj h] at hkind
      rcases hkind with hkind | hkind <;> cases hkind
    · cases h
  · split at h
    · split at h
      · have hkind := congrArg Prod.fst (Except.ok.inj h)
        rw [kindOfWord] at hkind
        split at hkind <;> cases hkind
      · cases h
    · split at h
      · next word s' hsymbol =>
        cases h
        rw [hsymbol, String.ofList_toList]
      · cases h

/-- No longer symbol stands where one has been read, since longer ones come first in the table. -/
theorem symbolAtFront_longest {text : String} {s : Symbol} (h : symbolAtFront cs = some (text, s)) :
    ∀ e ∈ symbolTable, text.length < e.1.length → ¬ e.1.toList <+: cs := by
  have hsorted : symbolTable.Pairwise fun a b => b.1.length ≤ a.1.length := by decide
  intro e he hlonger hfront
  obtain ⟨-, before, behind, htable, hbefore⟩ := List.find?_eq_some_iff_append.mp h
  rw [htable] at he hsorted
  obtain ⟨-, hbehind, -⟩ := List.pairwise_append.mp hsorted
  rcases List.mem_append.mp he with he | he
  · have hnot := hbefore e he
    rw [List.isPrefixOf_iff_prefix.mpr hfront] at hnot
    cases hnot
  · rcases List.mem_cons.mp he with rfl | he
    · exact Nat.lt_irrefl _ hlonger
    · exact absurd ((List.pairwise_cons.mp hbehind).1 e he) (Nat.not_le_of_lt hlonger)

/-! ## All tokens -/

/-- The characters that a token takes from the front of a text, and what they leave. -/
inductive Token.Takes : Token → List Char → List Char → Prop
  | string {pos : Nat} {quote : Char} {body text rest : List Char}
      (hquote : quote = '"' ∨ quote = '\'') (hbody : Quoting quote body text) :
      Takes ⟨.string, String.ofList text, pos⟩ (quote :: (body ++ [quote])) rest
  | front {pos : Nat} {c : Char} {tail rest : List Char} {kind : Kind}
      (h : tokenAtFront pos c (tail ++ rest) = .ok (kind, c :: tail)) :
      Takes ⟨kind, String.ofList (c :: tail), pos⟩ (c :: tail) rest

/-- How the tokens of a text from a position on lie in it. -/
inductive Covers : Nat → List Char → List Token → Prop
  | done {pos : Nat} {cs : List Char} (h : IsTail cs) :
      Covers pos cs [⟨.eof, "", pos + cs.length⟩]
  | token {pos : Nat} {gap chars rest : List Char} {t : Token} {ts : List Token}
      (hgap : IsGap gap) (hpos : t.pos = pos + gap.length) (htake : t.Takes chars rest)
      (h : Covers (t.pos + chars.length) rest ts) : Covers pos (gap ++ (chars ++ rest)) (t :: ts)

/-- A gap in front moves the tokens. -/
theorem Covers.behind (hgap : IsGap gap) (h : Covers (pos + gap.length) rest ts) :
    Covers pos (gap ++ rest) ts := by
  generalize hstart : pos + gap.length = start at h
  cases h with
  | done h =>
    have hdone : Covers pos _ _ := .done (hgap.append_tail h)
    rwa [List.length_append, ← Nat.add_assoc, hstart] at hdone
  | @token _ gap' chars rest t ts hgap' hpos htake h =>
    rw [← List.append_assoc]
    refine .token (hgap.append hgap') ?_ htake h
    rw [hpos, ← hstart, List.length_append, Nat.add_assoc]

theorem lex_covers (h : lex pos cs = .ok ts) : Covers pos cs ts := by
  fun_induction lex pos cs generalizing ts with
  | case1 pos =>
    cases h
    exact .done (.gap .nil)
  | case2 pos c rest hskip ih => exact .behind (.skip hskip .nil) (ih h)
  | case3 pos c rest hskip hcomment n =>
    rename_i ih
    have hslash : c = '/' ∧ rest.head? = some '/' := by simpa using hcomment
    obtain ⟨rfl, hhead⟩ := hslash
    obtain ⟨rest, rfl⟩ := List.head?_eq_some_iff.mp hhead
    rcases commentLength_cases rest with ⟨hline, hn⟩ | ⟨line, after, hline, rfl, hn⟩
    · rw [show n = rest.length + 2 from hn] at h
      have hnil : ('/' :: rest).drop (rest.length + 2 - 1) = [] := by simp
      rw [hnil, lex] at h
      cases h
      exact .done (.comment .nil hline)
    · have hafter := ih h
      rw [show n = line.length + 3 from hn] at hafter
      have hdrop : ('/' :: (line ++ '\n' :: after)).drop (line.length + 3 - 1) = after := by simp
      have hgap : IsGap ('/' :: '/' :: (line ++ ['\n'])) := .comment hline .nil
      rw [hdrop] at hafter
      have hall : Covers pos ('/' :: '/' :: (line ++ ['\n']) ++ after) ts :=
        .behind hgap (by simpa using hafter)
      simpa using hall
  | case4 => cases h
  | case5 pos c rest hskip hcomment hquote text stop after hbody hlength ih =>
    obtain ⟨ts', hts', rfl⟩ := map_cons_eq_ok h
    obtain ⟨body, rfl, hquoting, rfl⟩ := stringBody_quoting hbody
    have hquote : c = '"' ∨ c = '\'' := by simpa using hquote
    have hlength : pos + 1 + body.length + 1 = pos + (c :: (body ++ [c])).length := by simp; omega
    have hall : Covers pos _ _ := .token .nil rfl (.string hquote hquoting) (hlength ▸ ih hts')
    rwa [List.nil_append, List.cons_append, List.append_assoc] at hall
  | case6 => cases h
  | case7 pos c rest hskip hcomment hquote kind text htoken ih =>
    obtain ⟨ts', hts', rfl⟩ := map_cons_eq_ok h
    obtain ⟨tail, rfl, ⟨after, rfl⟩, -⟩ := tokenAtFront_eq_ok htoken
    have hafter := ih hts'
    rw [List.length_cons, Nat.add_sub_cancel, List.drop_left] at hafter
    exact @Covers.token pos _ _ _ _ _ .nil rfl (.front htoken) hafter

/-! ## Spans -/

/-- A token and the position behind its last character. -/
structure Span where
  token : Token
  stop : Nat

/-- What the characters of a token are. -/
structure Span.IsExact (s : Span) (cs : List Char) : Prop where
  kind : s.token.kind ≠ .eof
  text : s.token.kind ≠ .string → cs.extract s.token.pos s.stop = s.token.text.toList
  quoted : s.token.kind = .string → ∃ quote body, (quote = '"' ∨ quote = '\'') ∧
    cs.extract s.token.pos s.stop = quote :: (body ++ [quote]) ∧
      Quoting quote body s.token.text.toList
  longest : ∀ k, s.token.kind = .symbol k → (s.token.text, k) ∈ symbolTable ∧
    ∀ e ∈ symbolTable, s.token.text.length < e.1.length → ¬ e.1.toList <+: cs.drop s.token.pos

/-- Tokens one behind the other, from a position to the end of a text, with nothing but gaps
between them. -/
def Separated (cs : List Char) (start : Nat) : List Span → Prop
  | [] => start ≤ cs.length ∧ IsTail (cs.drop start)
  | s :: spans => start ≤ s.token.pos ∧ IsGap (cs.extract start s.token.pos) ∧
      s.token.pos < s.stop ∧ Separated cs s.stop spans

theorem extract_append (front mid rest : List Char) :
    (front ++ (mid ++ rest)).extract front.length (front.length + mid.length) = mid := by
  rw [List.extract_eq_take_drop, List.drop_left, Nat.add_sub_cancel_left, List.take_left]

theorem isWord_kindOfWord (word : String) : (kindOfWord word).IsWord := by
  rw [kindOfWord]
  split
  · next k _ => exact Or.inr ⟨k, rfl⟩
  · exact Or.inl rfl

theorem kind_ne_string {c : Char} {text : List Char} {kind : Kind}
    (h : tokenAtFront pos c rest = .ok (kind, text)) : kind ≠ .string := by
  rintro rfl
  rcases tokenAtFront_cases h with (hkind | hkind) | ⟨-, -, hkind⟩ | ⟨s, hkind, -⟩
  · cases hkind
  · cases hkind
  · rcases isWord_kindOfWord (String.ofList text) with hword | ⟨k, hword⟩ <;>
      cases hkind.trans hword
  · cases hkind

theorem Token.Takes.isExact {t : Token} {front chars : List Char} (h : t.Takes chars rest)
    (hpos : t.pos = front.length) :
    Span.IsExact ⟨t, t.pos + chars.length⟩ (front ++ (chars ++ rest)) := by
  have hslice := extract_append front chars rest
  rw [← hpos] at hslice
  cases h with
  | string hquote hbody =>
    refine ⟨nofun, fun hkind => absurd rfl hkind, fun _ => ⟨_, _, hquote, hslice, ?_⟩, nofun⟩
    rw [String.toList_ofList]
    exact hbody
  | @front pos c tail rest kind h =>
    refine ⟨kind_ne_eof h, fun _ => ?_, fun hkind => absurd hkind (kind_ne_string h), ?_⟩
    · rw [hslice, String.toList_ofList]
    · rintro k rfl
      have hsymbol := symbolAtFront_of_tokenAtFront h
      refine ⟨List.mem_of_find?_eq_some hsymbol, ?_⟩
      show ∀ e ∈ symbolTable, _ → ¬ e.1.toList <+: (front ++ (c :: tail ++ rest)).drop pos
      rw [show pos = front.length from hpos, List.drop_left]
      exact symbolAtFront_longest hsymbol

theorem Token.Takes.ne_nil {t : Token} {chars : List Char} (h : t.Takes chars rest) :
    chars ≠ [] := by
  cases h <;> exact List.cons_ne_nil _ _

theorem Covers.spans (h : Covers pos cs ts) {front : List Char} (hfront : front.length = pos) :
    ∃ spans : List Span, ts = spans.map Span.token ++ [⟨.eof, "", (front ++ cs).length⟩] ∧
      (∀ s ∈ spans, s.IsExact (front ++ cs)) ∧ Separated (front ++ cs) pos spans := by
  induction h generalizing front with
  | @done pos cs h =>
    refine ⟨[], ?_, List.forall_mem_nil _, ?_, ?_⟩
    · rw [List.length_append, hfront]
      rfl
    · rw [List.length_append]
      omega
    · rw [← hfront, List.drop_left]
      exact h
  | @token pos gap chars rest t ts hgap hpos htake h ih =>
    have hbefore : (front ++ gap).length = t.pos := by rw [List.length_append, hfront, hpos]
    have hbehind : (front ++ gap ++ chars).length = t.pos + chars.length := by
      rw [List.length_append, hbefore]
    obtain ⟨spans, rfl, hexact, hseparated⟩ := ih hbehind
    have hspan := htake.isExact hbefore.symm
    have hslice := extract_append front gap (chars ++ rest)
    rw [hfront, ← hpos] at hslice
    rw [← List.append_assoc, ← List.append_assoc] at hslice ⊢
    rw [← List.append_assoc] at hspan
    refine ⟨⟨t, t.pos + chars.length⟩ :: spans, rfl, List.forall_mem_cons.mpr ⟨hspan, hexact⟩,
      by rw [hpos]; exact Nat.le_add_right _ _, ?_, ?_, hseparated⟩
    · rw [hslice]
      exact hgap
    · exact Nat.lt_add_of_pos_right (List.length_pos_iff.mpr htake.ne_nil)

theorem Separated.le_length {start : Nat} {spans : List Span} (h : Separated cs start spans) :
    start ≤ cs.length ∧ ∀ s ∈ spans, start ≤ s.token.pos ∧ s.token.pos < cs.length := by
  induction spans generalizing start with
  | nil => exact ⟨h.1, List.forall_mem_nil _⟩
  | cons s spans ih =>
    obtain ⟨hstart, -, hstop, hrest⟩ := h
    obtain ⟨hle, hspans⟩ := ih hrest
    refine ⟨by omega, List.forall_mem_cons.mpr ⟨by omega, fun u hu => ?_⟩⟩
    have hu := hspans u hu
    omega

/-- Tokens begin one behind the other. -/
theorem Separated.pairwise {start : Nat} {spans : List Span} (h : Separated cs start spans) :
    (spans.map fun s => s.token.pos).Pairwise (· < ·) := by
  induction spans generalizing start with
  | nil => exact .nil
  | cons s spans ih =>
    obtain ⟨-, -, hstop, hrest⟩ := h
    refine List.pairwise_cons.mpr ⟨fun p hp => ?_, ih hrest⟩
    obtain ⟨u, hu, rfl⟩ := List.mem_map.mp hp
    exact Nat.lt_of_lt_of_le hstop (hrest.le_length.2 u hu).1

/-- Every character belongs to one token, to a blank or to a comment: tokens begin one behind the other
and the end of input stands at the end; a token other than a string is the text that it covers, a string
is written between two of the same quotes; between the tokens, in front of them and behind them there
are blanks and comments only; and where a symbol has been read, no longer one begins. -/
theorem tokenize_exact {source : String} {ts : List Token} (h : tokenize source = .ok ts) :
    ∃ spans : List Span, ts = spans.map Span.token ++ [⟨.eof, "", source.length⟩] ∧
      (ts.map Token.pos).Pairwise (· < ·) ∧ (∀ s ∈ spans, s.IsExact source.toList) ∧
      Separated source.toList 0 spans := by
  have hstart : ([] : List Char).length = 0 := rfl
  obtain ⟨spans, rfl, hexact, hseparated⟩ := (lex_covers h).spans hstart
  rw [List.nil_append] at hexact hseparated ⊢
  refine ⟨spans, by rw [String.length_toList], ?_, hexact, hseparated⟩
  rw [List.map_append, List.map_map]
  refine List.pairwise_append.mpr ⟨hseparated.pairwise, List.pairwise_singleton _ _, ?_⟩
  intro p hp q hq
  obtain ⟨s, hs, rfl⟩ := List.mem_map.mp hp
  rw [List.map_singleton, List.mem_singleton] at hq
  rw [hq]
  exact (hseparated.le_length.2 s hs).2

/-- A text with a comment that its line ends, a string with an escape and a comment that nothing ends. -/
theorem tokenize_exact_sample : ∃ ts, tokenize " a === // b\n'\\n' // c" = .ok ts ∧
    ts = [⟨.ident, "a", 1⟩, ⟨.symbol .strictEq, "===", 3⟩, ⟨.string, "\n", 12⟩, ⟨.eof, "", 21⟩] ∧
    ∃ spans : List Span, ts = spans.map Span.token ++ [⟨.eof, "", 21⟩] ∧
      (ts.map Token.pos).Pairwise (· < ·) ∧
      (∀ s ∈ spans, s.IsExact " a === // b\n'\\n' // c".toList) ∧
      Separated " a === // b\n'\\n' // c".toList 0 spans :=
  have h : tokenize " a === // b\n'\\n' // c" =
      .ok [⟨.ident, "a", 1⟩, ⟨.symbol .strictEq, "===", 3⟩, ⟨.string, "\n", 12⟩, ⟨.eof, "", 21⟩] := by
    cbv
  ⟨_, h, rfl, tokenize_exact h⟩

end Script
end Vitrine
