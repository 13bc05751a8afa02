import Vitrine.Proofs.Decimal.RoundTrip
import Vitrine.Proofs.Script.Lexing

/-!
# Spelling tokens

How a token is spelled, and that spelled tokens with a blank between them are read as the tokens that
they are (`lex_spelled`).
-/
namespace Vitrine
namespace Script

/-- What a token is wherever it stands: its kind and its text. -/
structure Lexeme where
  kind : Kind
  text : String

def Token.lexeme (t : Token) : Lexeme := ⟨t.kind, t.text⟩

/-- The end of input. -/
def Lexeme.eof : Lexeme := ⟨.eof, ""⟩

/-- A character inside of a string. -/
def escapeChar (c : Char) : List Char :=
  if c = '"' || c = '\\' then ['\\', c] else if c = '\n' then ['\\', 'n'] else [c]

def Lexeme.spelling (x : Lexeme) : List Char :=
  match x.kind with
  | .string => '"' :: (x.text.toList.flatMap escapeChar ++ ['"'])
  | _ => x.text.toList

theorem Lexeme.spelling_of_ne {x : Lexeme} (h : x.kind ≠ .string) : x.spelling = x.text.toList := by
  rw [spelling]
  split
  · next hs => exact absurd hs h
  · rfl

/-- The spelling of tokens with a blank between them. -/
def spelled : List Lexeme → List Char
  | [] => []
  | [x] => x.spelling
  | x :: xs => x.spelling ++ ' ' :: spelled xs

/-- Names are made of ASCII letters, digits, the underscore and the dollar sign. -/
def IsName (word : String) : Prop :=
  ∃ c cs, word.toList = c :: cs ∧ isNameStart c = true ∧ ∀ d ∈ cs, isNameChar d = true

instance (word : String) : Decidable (IsName word) :=
  match h : word.toList with
  | [] => isFalse fun ⟨_, _, hword, _⟩ => nomatch h.symm.trans hword
  | c :: cs =>
    if hc : isNameStart c = true ∧ ∀ d ∈ cs, isNameChar d = true then
      isTrue ⟨c, cs, h, hc.1, hc.2⟩
    else isFalse fun ⟨_, _, hword, hstart, hchars⟩ => by
      obtain ⟨rfl, rfl⟩ := List.cons.inj (h.symm.trans hword)
      exact hc ⟨hstart, hchars⟩

theorem IsName.isNameChar {word : String} (h : IsName word) :
    ∀ d ∈ word.toList, Script.isNameChar d = true := by
  obtain ⟨c, cs, hword, hc, hcs⟩ := h
  rw [hword]
  refine List.forall_mem_cons.mpr ⟨?_, hcs⟩
  rw [Script.isNameChar, hc]
  rfl

/-- Tokens that can be spelled. -/
inductive IsSpelled : Lexeme → Prop
  | symbol {text : String} {s : Symbol} (h : (text, s) ∈ symbolTable) : IsSpelled ⟨.symbol s, text⟩
  | word {word : String} (h : IsName word) : IsSpelled ⟨kindOfWord word, word⟩
  | int (n : Nat) : IsSpelled ⟨.int, String.ofList (Decimal.digitChars n)⟩
  | string (s : String) : IsSpelled ⟨.string, s⟩

/-! ## One token -/

/-- A text that is one token. -/
def IsToken (x : Lexeme) : Prop :=
  ∀ pos, lex pos x.spelling =
      .ok [⟨x.kind, x.text, pos⟩, ⟨.eof, "", pos + x.spelling.length⟩] ∧
    endsInComment pos x.spelling = false

theorem isToken_of_tokenAtFront {x : Lexeme} {c : Char} {cs : List Char}
    (hx : x.spelling = c :: cs) (htext : String.ofList (c :: cs) = x.text)
    (hskip : ¬ isSkipped c = true)
    (hcomment : ¬ (decide (c = '/') && decide (cs.head? = some '/')) = true)
    (hquote : ¬ (decide (c = '"') || decide (c = '\'')) = true)
    (htoken : ∀ pos, tokenAtFront pos c cs = .ok (x.kind, c :: cs)) : IsToken x := by
  intro pos
  obtain ⟨hlex, hends⟩ := lex_token hskip hcomment hquote (htoken pos)
  have hrest : cs.drop ((c :: cs).length - 1) = [] := by simp
  rw [hrest] at hlex hends
  rw [hx, hlex, hends, lex, endsInComment, htext]
  exact ⟨rfl, rfl⟩

theorem isAsciiLetter_iff {c : Char} : Text.isAsciiLetter c = true ↔
    97 ≤ c.toNat ∧ c.toNat ≤ 122 ∨ 65 ≤ c.toNat ∧ c.toNat ≤ 90 := by
  rw [Text.isAsciiLetter, Bool.or_eq_true, Bool.and_eq_true, Bool.and_eq_true, decide_eq_true_eq,
    decide_eq_true_eq, decide_eq_true_eq, decide_eq_true_eq]
  exact Iff.rfl

theorem isNameStart_iff {c : Char} : isNameStart c = true ↔
    Text.isAsciiLetter c = true ∨ c = '_' ∨ c = '$' := by
  rw [isNameStart, Bool.or_eq_true, Bool.or_eq_true, decide_eq_true_eq, decide_eq_true_eq, or_assoc]

theorem has_digitSignRanges {n : Nat} (h : n < 128) : Text.digitSignRanges.has n = false := by
  have hranges : ∀ r ∈ Text.digitSignRanges, 128 ≤ r.1 := by decide
  rw [← Bool.not_eq_true, Text.Ranges.has_iff]
  rintro ⟨r, hr, hle, -⟩
  have h128 := hranges r hr
  omega

theorem isDecimalDigit_of_lt {c : Char} (h : c.toNat < 128) :
    Text.isDecimalDigit c = Text.isAsciiDigit c := by
  rw [Text.isDecimalDigit, Text.digitValue?, if_pos h]
  cases Text.isAsciiDigit c <;> rfl

/-- A name begins with no digit of any kind. -/
theorem isDigitSign_of_isNameStart {c : Char} (h : isNameStart c = true) :
    Text.isDigitSign c = false := by
  have hsmall : c.toNat < 128 ∧ (c.toNat < 48 ∨ 57 < c.toNat) := by
    rcases isNameStart_iff.mp h with h | rfl | rfl
    · have hletter := isAsciiLetter_iff.mp h
      omega
    · decide
    · decide
  have hdigit : Text.isAsciiDigit c = false := by
    rw [← Bool.not_eq_true, Decimal.isAsciiDigit_iff]
    omega
  rw [Text.isDigitSign, isDecimalDigit_of_lt hsmall.1, hdigit, has_digitSignRanges hsmall.1]
  rfl

theorem isLetter_of_isNameStart {c : Char} (h : isNameStart c = true) :
    (Text.isLetter c || decide (c = '_') || decide (c = '$')) = true := by
  rcases isNameStart_iff.mp h with h | rfl | rfl
  · rw [Text.isLetter_of_isAsciiLetter h]
    rfl
  · decide
  · decide

theorem ne_of_isNameStart {c d : Char} (h : isNameStart c = true) (hd : isNameStart d = false) :
    c ≠ d := by
  rintro rfl
  rw [h] at hd
  cases hd

theorem isToken_word {word : String} (h : IsName word) : IsToken ⟨kindOfWord word, word⟩ := by
  obtain ⟨c, cs, hword, hc, hcs⟩ := h
  have hne : ∀ d, isNameStart d = false → c ≠ d := fun d hd => ne_of_isNameStart hc hd
  have htext : String.ofList (c :: cs) = word := by rw [← hword, String.ofList_toList]
  have hkind : kindOfWord word ≠ .string := by
    rw [kindOfWord]
    split <;> exact fun h => nomatch h
  have hspelling : (⟨kindOfWord word, word⟩ : Lexeme).spelling = c :: cs :=
    (Lexeme.spelling_of_ne hkind).trans hword
  refine isToken_of_tokenAtFront hspelling htext ?_ ?_ ?_ fun pos => ?_
  · simp [isSkipped, hne ' ' (by decide), hne '\t' (by decide), hne '\n' (by decide),
      hne '\r' (by decide)]
  · simp [hne '/' (by decide)]
  · simp [hne '"' (by decide), hne '\'' (by decide)]
  · have htake : cs.takeWhile isNameChar = cs := List.takeWhile_eq_self_iff.mpr hcs
    rw [tokenAtFront, isDigitSign_of_isNameStart hc, if_neg (by simp),
      if_pos (isLetter_of_isNameStart hc), if_pos hc]
    dsimp only
    rw [htake, htext]

theorem isToken_int (n : Nat) : IsToken ⟨.int, String.ofList (Decimal.digitChars n)⟩ := by
  have hdigits : ∀ c ∈ Decimal.digitChars n, Text.isAsciiDigit c = true :=
    fun c hc => Decimal.isAsciiDigit_of_mem_digitChars hc
  match hcs : Decimal.digitChars n with
  | [] => exact absurd hcs (Decimal.digitChars_ne_nil n)
  | c :: cs =>
    rw [hcs] at hdigits
    have hc := hdigits c List.mem_cons_self
    have hne : ∀ d, Text.isAsciiDigit d = false → c ≠ d :=
      fun d hd => Decimal.ne_of_isAsciiDigit hc hd
    have hdecimal : ∀ d ∈ c :: cs, Text.isDecimalDigit d = true := by
      intro d hd
      have hd := hdigits d hd
      have hbounds := Decimal.isAsciiDigit_iff.mp hd
      rw [isDecimalDigit_of_lt (by omega), hd]
    have hwhole : digitsAtFront (c :: cs) = c :: cs := List.takeWhile_eq_self_iff.mpr hdecimal
    have hspelling : (Lexeme.mk .int (String.ofList (c :: cs))).spelling = c :: cs :=
      String.toList_ofList ..
    refine isToken_of_tokenAtFront hspelling rfl ?_ ?_ ?_ fun pos => ?_
    · simp [isSkipped, hne ' ' (by decide), hne '\t' (by decide), hne '\n' (by decide),
        hne '\r' (by decide)]
    · simp [hne '/' (by decide)]
    · simp [hne '"' (by decide), hne '\'' (by decide)]
    · have hnumber : numberAtFront (c :: cs) = (.int, c :: cs) := by
        simp [numberAtFront, hwhole, fractionAtFront, exponentAtFront]
      rw [tokenAtFront, Text.isDigitSign, hdecimal c List.mem_cons_self, Bool.true_or, if_pos rfl,
        if_pos rfl, hnumber]

theorem isToken_symbol {text : String} {s : Symbol} (h : (text, s) ∈ symbolTable) :
    IsToken ⟨.symbol s, text⟩ := by
  have hall : ∀ e ∈ symbolTable, e.1.toList ≠ [] ∧
      isSkipped (e.1.toList.headD ' ') = false ∧
      (decide (e.1.toList.headD ' ' = '/') && decide (e.1.toList.tail.head? = some '/')) = false ∧
      (decide (e.1.toList.headD ' ' = '"') || decide (e.1.toList.headD ' ' = '\'')) = false ∧
      Text.isDigitSign (e.1.toList.headD ' ') = false ∧
      (Text.isLetter (e.1.toList.headD ' ') || decide (e.1.toList.headD ' ' = '_') ||
        decide (e.1.toList.headD ' ' = '$')) = false ∧
      symbolAtFront e.1.toList = some e := by decide +kernel
  obtain ⟨hne, hskip, hcomment, hquote, hdigit, hletter, hsymbol⟩ := hall _ h
  match hcs : text.toList with
  | [] => exact absurd hcs hne
  | c :: cs =>
    rw [hcs] at hskip hcomment hquote hdigit hletter hsymbol
    rw [List.headD_cons] at hskip hcomment hquote hdigit hletter
    rw [List.tail_cons] at hcomment
    have htext : String.ofList (c :: cs) = text := by rw [← hcs, String.ofList_toList]
    refine isToken_of_tokenAtFront hcs htext (Bool.not_eq_true _ ▸ hskip)
      (Bool.not_eq_true _ ▸ hcomment) (Bool.not_eq_true _ ▸ hquote) fun pos => ?_
    rw [tokenAtFront, hdigit, if_neg Bool.false_ne_true, hletter, if_neg Bool.false_ne_true,
      hsymbol]
    dsimp only
    rw [hcs]

/-- The ways to write a character between double quotes: as itself or behind a backslash. -/
def IsPiece (c : Char) (piece : List Char) : Prop :=
  (∃ d, piece = ['\\', d] ∧ unescape d = c) ∨ piece = [c] ∧ c ≠ '"' ∧ c ≠ '\\' ∧ c ≠ '\n'

theorem isPiece_escapeChar (c : Char) : IsPiece c (escapeChar c) := by
  rw [escapeChar]
  split
  · next hc =>
    refine Or.inl ⟨c, rfl, ?_⟩
    rcases Bool.or_eq_true_iff.mp hc with hc | hc <;> rw [of_decide_eq_true hc] <;> rfl
  · next hc =>
    rw [Bool.or_eq_true, decide_eq_true_eq, decide_eq_true_eq, not_or] at hc
    split
    · next hnewline => exact Or.inl ⟨'n', rfl, hnewline.symm⟩
    · next hnewline => exact Or.inr ⟨rfl, hc.1, hc.2, hnewline⟩

theorem stringBody_piece (start : Nat) {c : Char} {piece cs text rest : List Char}
    (hpiece : IsPiece c piece)
    (h : ∀ pos, ∃ stop, stringBody '"' start pos cs = .ok (text, stop, rest)) (pos : Nat) :
    ∃ stop, stringBody '"' start pos (piece ++ cs) = .ok (c :: text, stop, rest) := by
  rcases hpiece with ⟨d, rfl, hd⟩ | ⟨rfl, hquote, hback, hnewline⟩
  · obtain ⟨stop, hbody⟩ := h (pos + 2)
    refine ⟨stop, ?_⟩
    rw [List.cons_append, List.cons_append, List.nil_append, stringBody, hbody]
    show Except.ok (unescape d :: text, stop, rest) = _
    rw [hd]
  · obtain ⟨stop, hbody⟩ := h (pos + 1)
    refine ⟨stop, ?_⟩
    rw [List.cons_append, List.nil_append, stringBody_cons hback hnewline, if_neg hquote, hbody]
    rfl

/-- The content of a string is read back, however its characters are written. -/
theorem stringBody_pieces {f : Char → List Char} {text : List Char}
    (hf : ∀ c ∈ text, IsPiece c (f c)) (start : Nat) (more : List Char) (pos : Nat) :
    ∃ stop, stringBody '"' start pos (text.flatMap f ++ '"' :: more) = .ok (text, stop, more) := by
  induction text generalizing pos with
  | nil =>
    refine ⟨pos + 1, ?_⟩
    show stringBody '"' start pos ('"' :: more) = _
    rw [stringBody_cons (by decide) (by decide), if_pos rfl]
  | cons c text ih =>
    rw [List.flatMap_cons, List.append_assoc]
    exact stringBody_piece start (hf c List.mem_cons_self)
      (ih fun d hd => hf d (List.mem_cons_of_mem c hd)) pos

/-- A text in quotes is one string, which ends where the text ends. -/
theorem lex_quoted {pos stop : Nat} {cs text : List Char}
    (h : stringBody '"' pos (pos + 1) cs = .ok (text, stop, [])) :
    lex pos ('"' :: cs) = .ok [⟨.string, String.ofList text, pos⟩,
        ⟨.eof, "", pos + ('"' :: cs).length⟩] ∧
      endsInComment pos ('"' :: cs) = false := by
  obtain ⟨-, hstop⟩ := stringBody_append h []
  obtain ⟨hlex, hends⟩ := lex_string rfl h
  have hlength : stop = pos + ('"' :: cs).length := by
    rw [List.length_cons]
    rw [List.length_nil] at hstop
    omega
  rw [hlex, hends, lex, endsInComment, hlength]
  exact ⟨rfl, rfl⟩

theorem isToken_string (s : String) : IsToken ⟨.string, s⟩ := by
  intro pos
  have hpieces : ∀ c ∈ s.toList, IsPiece c (escapeChar c) := fun c _ => isPiece_escapeChar c
  obtain ⟨stop, hbody⟩ := stringBody_pieces hpieces pos [] (pos + 1)
  have hquoted := lex_quoted hbody
  rw [String.ofList_toList] at hquoted
  exact hquoted

theorem IsSpelled.isToken {x : Lexeme} (h : IsSpelled x) : IsToken x := by
  cases h with
  | symbol h => exact isToken_symbol h
  | word h => exact isToken_word h
  | int n => exact isToken_int n
  | string s => exact isToken_string s

/-! ## All tokens -/

/-- Spelled tokens are read back. -/
theorem lex_spelled {xs : List Lexeme} (h : ∀ x ∈ xs, IsSpelled x) (pos : Nat) :
    ∃ ts, lex pos (spelled xs) = .ok ts ∧ ts.map Token.lexeme = xs ++ [.eof] := by
  induction xs generalizing pos with
  | nil => exact ⟨_, by rw [spelled, lex], rfl⟩
  | cons x xs ih =>
    obtain ⟨hlex, hends⟩ := (h x List.mem_cons_self).isToken pos
    cases xs with
    | nil => exact ⟨_, hlex, rfl⟩
    | cons y ys =>
      obtain ⟨ts, hts, hmap⟩ := ih (fun z hz => h z (List.mem_cons_of_mem _ hz))
        (pos + x.spelling.length + 1)
      have hskip : lex (pos + x.spelling.length) (' ' :: spelled (y :: ys)) = .ok ts := by
        rw [lex, if_pos (by decide), hts]
      refine ⟨⟨x.kind, x.text, pos⟩ :: ts, ?_, ?_⟩
      · rw [spelled, lex_append (isBreak_of_mem (by decide)) hlex (Or.inr hends), hskip]
        · rfl
        · exact List.cons_ne_nil y ys
      · rw [List.map_cons, hmap]
        rfl

end Script
end Vitrine
